import ReversePolish.Command.Flag
import ReversePolish.Text.DecimalDigit

/-!
# Arguments of the command line

Before the arguments are read in their order, each is looked at on its own.
It is a flag if it is one of its forms, alone or with a value behind an equals
sign; if it abbreviates the long form of one flag, again with or without such a
value; or if it starts with the short form of a flag, to which the rest is
attached.  Other arguments that start with a hyphen are unknown, unless they
are a single hyphen or a negative number or hold a blank: those are plain, as
are all that start otherwise.

The first argument that consists of two hyphens is the separator, and what
stands behind it is plain.
-/

namespace ReversePolish

/-- A flag as it is given by one argument. -/
structure Mention where
  flag : Flag
  isShort : Bool
  /-- What stands behind the flag in the same argument. -/
  attached? : Option Text
deriving DecidableEq, Repr

/-- What an argument is, seen on its own. -/
inductive Role where
  | plain
  | separator
  | flag (m : Mention)
  | unknown
deriving DecidableEq, Repr

/-- An argument with its role. -/
structure Argument where
  text : Text
  role : Role
deriving DecidableEq, Repr

namespace Argument

/-- A text up to its first equals sign and behind it, if it has one. -/
def splitEquals? (t : Text) : Option (Text × Text) :=
  match t.dropWhile (· ≠ '=') with
  | [] => none
  | _ :: behind => some (t.takeWhile (· ≠ '='), behind)

/-- Whether a text is the numeral of a negative number, perhaps with a decimal point. -/
def isNegativeNumber : Text → Bool
  | '-' :: rest =>
      let rest := if rest.getLast? = some '\n' then rest.dropLast else rest
      match rest.dropWhile Text.DecimalDigit.isDigit with
      | [] => !rest.isEmpty
      | '.' :: fraction => !fraction.isEmpty && fraction.all Text.DecimalDigit.isDigit
      | _ => false
  | _ => false

/-- The flags whose long forms a text abbreviates. -/
def abbreviated (t : Text) : List Flag :=
  Flag.all.filter fun f => t.isPrefixOf f.long

/-- A flag that an argument gives by itself or with a value behind an equals sign. -/
def whole? (t : Text) : Option Mention :=
  match Flag.ofText? t, splitEquals? t with
  | some (f, isShort), _ => some ⟨f, isShort, none⟩
  | none, some (front, behind) =>
      (Flag.ofText? front).map fun (f, isShort) => ⟨f, isShort, some behind⟩
  | none, none => none

/-- The flags that an argument may give otherwise. -/
def candidates : Text → List Mention
  | '-' :: '-' :: rest =>
      let (front, behind?) :=
        match splitEquals? rest with
        | some (front, behind) => (front, some behind)
        | none => (rest, none)
      (abbreviated ('-' :: '-' :: front)).map fun f => ⟨f, false, behind?⟩
  | '-' :: c :: rest => ((Flag.ofLetter? c).map fun f => ⟨f, true, some rest⟩).toList
  | _ => []

/-- The role of an argument before the separator, or the flags between which it does not
decide. -/
def roleOf (t : Text) : Except (List Flag) Role :=
  if t.head? ≠ some '-' then .ok .plain
  else
    match whole? t, candidates t with
    | some m, _ => .ok (.flag m)
    | none, [m] => .ok (.flag m)
    | none, [] =>
        if t = ['-'] ∨ isNegativeNumber t ∨ ' ' ∈ t then .ok .plain else .ok .unknown
    | none, many => .error (many.map Mention.flag)

/-- The two hyphens of the separator. -/
def separatorText : Text := ['-', '-']

/-- An argument that does not decide between flags. -/
structure Ambiguity where
  text : Text
  flags : List Flag
deriving DecidableEq, Repr

/-- All arguments with their roles. -/
def classify : List Text → Except Ambiguity (List Argument)
  | [] => .ok []
  | t :: rest =>
      if t = separatorText then
        .ok (⟨t, .separator⟩ :: rest.map fun u => ⟨u, .plain⟩)
      else
        match roleOf t with
        | .error flags => .error ⟨t, flags⟩
        | .ok role => do
            let arguments ← classify rest
            return ⟨t, role⟩ :: arguments

end Argument

end ReversePolish
