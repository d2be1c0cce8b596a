import ReversePolish.Command.Argument
import ReversePolish.Text.Quoted

/-!
# Requests

The arguments of the command line are flags, then a command, then words.  All
that stands behind the command is a word, whatever it looks like; only a
separator right behind the command is passed over.

A switch may be followed in the same argument by the letters of further flags.
The value of a flag is what is attached to it, or else the next argument, which
then has to be plain.  The last value given counts.  An unknown argument before
the command is a mistake that is reported when everything else is in order.
-/

namespace ReversePolish

/-- What the program can be told to do. -/
inductive Command where
  | input
  | print
  | bindings
  | clear
deriving DecidableEq, Repr

namespace Command

/-- All commands, in the order in which they are listed. -/
def all : List Command :=
  [input, print, bindings, clear]

/-- The name of a command. -/
def name : Command → Text
  | input => "input".toList
  | print => "print".toList
  | bindings => "variables".toList
  | clear => "clear".toList

/-- The command of a name. -/
def ofName? (t : Text) : Option Command :=
  all.find? fun c => c.name = t

@[simp] theorem ofName?_name
    (c : Command) :
    ofName? c.name = some c := by
  cases c <;> decide

end Command

/-- What the flags say. -/
structure Options where
  /-- The path of the session file; none if the value of its flag was lost. -/
  session? : Option Text
  verbose : Bool
  quiet : Bool
deriving DecidableEq, Repr

namespace Options

/-- What holds without any flags. -/
def standard : Options :=
  ⟨some "session.json".toList, false, false⟩

end Options

/-- A mistake in the arguments. -/
inductive Mistake where
  | ambiguous (a : Argument.Ambiguity)
  | valueExpected (f : Flag)
  /-- Something is attached to a switch that is no flag. -/
  | attachmentIgnored (f : Flag) (attached : Text)
  | invalidCommand (t : Text)
  | commandMissing
  | unrecognized (arguments : List Text)
  /-- A command that takes no words has some. -/
  | furtherWords (c : Command)
deriving DecidableEq, Repr

namespace Mistake

/-- Texts with commas between them. -/
def listed (pieces : List Text) : Text :=
  ", ".toList.intercalate pieces

/-- A mistake in words. -/
def message : Mistake → Text
  | ambiguous a =>
      "ambiguous option: ".toList ++ a.text ++ " could match ".toList ++
        listed (a.flags.map Flag.long)
  | valueExpected f =>
      "argument ".toList ++ f.label ++ ": expected one argument".toList
  | attachmentIgnored f attached =>
      "argument ".toList ++ f.label ++ ": ignored explicit argument ".toList ++
        Text.Quoted.ofText attached
  | invalidCommand t =>
      "argument command: invalid choice: ".toList ++ Text.Quoted.ofText t ++
        " (choose from ".toList ++
        listed (Command.all.map fun c => Text.Quoted.ofText c.name) ++ [')']
  | commandMissing => "the following arguments are required: command, words".toList
  | unrecognized arguments =>
      "unrecognized arguments: ".toList ++ [' '].intercalate arguments
  | furtherWords c => c.name ++ " takes no further words".toList

end Mistake

/-- Where the value of the flags in one argument comes from. -/
inductive Value where
  | notNeeded
  | attached (t : Text)
  /-- From the next argument. -/
  | awaited
deriving DecidableEq, Repr

/-- The flags that one argument gives. -/
structure Cluster where
  switches : List Flag
  value : Value
deriving DecidableEq, Repr

namespace Cluster

/-- A flag with the letters that are attached to it. -/
def ofLetters (f : Flag) : Text → Except Mistake Cluster
  | [] => .ok (if f.takesValue then ⟨[], .awaited⟩ else ⟨[f], .notNeeded⟩)
  | c :: rest =>
      if f.takesValue then .ok ⟨[], .attached (c :: rest)⟩
      else
        match Flag.ofLetter? c with
        | none => .error (.attachmentIgnored f (c :: rest))
        | some next => do
            let cluster ← ofLetters next rest
            return { cluster with switches := f :: cluster.switches }

/-- The flags that a mention stands for. -/
def ofMention (m : Mention) : Except Mistake Cluster :=
  match m.attached? with
  | none => ofLetters m.flag []
  | some attached =>
      if m.flag.takesValue then .ok ⟨[], .attached attached⟩
      else if m.isShort && !attached.isEmpty then ofLetters m.flag attached
      else .error (.attachmentIgnored m.flag attached)

/-- The options as the switches of a cluster change them. -/
def setSwitches (c : Cluster) (options : Options) : Options :=
  { options with
    verbose := options.verbose || c.switches.contains .verbose
    quiet := options.quiet || c.switches.contains .quiet }

end Cluster

namespace Options

/-- The options with the attached value of a flag, which is lost if it reads as a separator. -/
def setAttached (options : Options) (value : Text) : Options :=
  { options with session? := if value = Argument.separatorText then none else some value }

end Options

/-- A command with its words and options. -/
structure Request where
  options : Options
  command : Command
  words : List Text
deriving DecidableEq, Repr

/-- What the arguments ask for. -/
inductive Demand where
  | help
  | request (r : Request)
deriving DecidableEq, Repr

namespace Demand

/-- The words behind a command. -/
def wordsOf : List Argument → List Text
  | ⟨_, .separator⟩ :: rest => rest.map Argument.text
  | arguments => arguments.map Argument.text

/-- A demand for the command of the given name, if no argument was unknown. -/
def ofCommand
    (options : Options) (unknown : List Text) (name : Text) (rest : List Argument) :
    Except Mistake Demand :=
  match Command.ofName? name with
  | none => .error (.invalidCommand name)
  | some command =>
      if unknown.isEmpty then .ok (.request ⟨options, command, wordsOf rest⟩)
      else .error (.unrecognized unknown)

/-- What arguments ask for behind those that gave the options and the unknown arguments. -/
def ofArgumentsFrom
    (options : Options) (unknown : List Text) :
    List Argument → Except Mistake Demand
  | [] => .error .commandMissing
  | ⟨t, .plain⟩ :: rest => ofCommand options unknown t rest
  | ⟨_, .separator⟩ :: [] => .error .commandMissing
  | ⟨_, .separator⟩ :: ⟨t, _⟩ :: rest => ofCommand options unknown t rest
  | ⟨t, .unknown⟩ :: rest => ofArgumentsFrom options (unknown ++ [t]) rest
  | ⟨_, .flag m⟩ :: rest => do
      let cluster ← Cluster.ofMention m
      let isHelp := cluster.switches.contains .help
      let options := cluster.setSwitches options
      match cluster.value with
      | .notNeeded => if isHelp then return help else ofArgumentsFrom options unknown rest
      | .attached value =>
          if isHelp then return help
          else ofArgumentsFrom (options.setAttached value) unknown rest
      | .awaited =>
          match rest with
          | ⟨value, .plain⟩ :: rest =>
              if isHelp then return help
              else ofArgumentsFrom { options with session? := some value } unknown rest
          | _ => throw (.valueExpected .session)

/-- What the arguments of the command line ask for. -/
def ofTexts (arguments : List Text) : Except Mistake Demand :=
  match Argument.classify arguments with
  | .error a => .error (.ambiguous a)
  | .ok arguments => ofArgumentsFrom .standard [] arguments

end Demand

end ReversePolish
