import ReversePolish.Command.Usage
import ReversePolish.Complaint.Basic
import ReversePolish.Session.Keeping

/-!
# Runs of the program

A run takes the arguments of the command line and the disk as it is.  It
answers what to write to the two outputs, which changes to make on the disk
and how to end.

The commands `input`, `print` and `variables` resume the session, do their
work and keep the session again, also when an expression could not be
evaluated to its end; `clear` removes the file of the session.  A session that
cannot be resumed is not replaced.  Complaints end the run with status 1,
mistakes in the arguments with status 2.  A breakdown ends it at once.
-/

namespace ReversePolish

/-- How a run ends. -/
inductive Ending where
  /-- Nothing was asked for. -/
  | returned
  | status (code : Nat)
  | breakdown (b : Breakdown)
deriving DecidableEq, Repr

/-- What a run does. -/
structure Run where
  ending : Ending
  output : Text
  /-- What is written to the error output. -/
  errors : Text
  changes : List Change
  /-- The picks that are left. -/
  picks : Picks
deriving DecidableEq, Repr

/-- What a command makes of a session. -/
structure Work where
  session : Session
  output : Text
  complaints : List Complaint
  breakdown? : Option Breakdown
deriving DecidableEq, Repr

namespace Work

/-- Shows something and leaves the session as it is. -/
def showing (s : Session) (shown : Text) : Work :=
  ⟨s, Text.lines [shown], [], none⟩

/-- Evaluates words, with the stack shown after each of them unless `quiet`. -/
def evaluating (s : Session) (quiet : Bool) (words : List Text) : Work :=
  let evaluation := s.evaluate words
  let echo :=
    if quiet then [] else Text.lines (evaluation.steps.map fun step => step.stack.render)
  match evaluation.halt? with
  | none => ⟨evaluation.session, echo, [], none⟩
  | some (.stopped _ spot cause) =>
      ⟨evaluation.session, echo, (Complaint.ofStop? words spot cause).toList, none⟩
  | some (.unreadable f) => ⟨evaluation.session, echo, [], some (.numeral f)⟩

end Work

namespace Run

/-- A run that ends with complaints, if there are any. -/
def concluding
    (output errors : Text) (changes : List Change) (complaints : List Complaint)
    (picks : Picks) : Run :=
  let (console, picks) := Complaint.console complaints picks
  ⟨.status (if complaints.isEmpty then 0 else 1), output, errors ++ console, changes, picks⟩

/-- A run that a breakdown ends. -/
def broken
    (b : Breakdown) (output errors : Text) (changes : List Change) (picks : Picks) : Run :=
  ⟨.breakdown b, output, errors, changes, picks⟩

/-- A run that fails at the file of the session, after other complaints. -/
def failing
    (output errors : Text) (changes : List Change) (complaints : List Complaint) (path : Path)
    (picks : Picks) : Failure → Run
  | .breakdown b => broken b output errors changes picks
  | .problem problem =>
      concluding output errors changes
        (complaints ++ [Complaint.ofProblem path problem.message]) picks

/-- A run with a mistake in its arguments. -/
def mistaken (m : Mistake) (picks : Picks) : Run :=
  ⟨.status 2, [], Usage.report m, [], picks⟩

/-- A remark, if the options ask for remarks. -/
def remarkIf (verbose : Bool) (remark : Text) : Text :=
  if verbose then Complaint.remark [remark] else []

/-- Removes the file of the session. -/
def clearing (d : Disk) (path : Path) (verbose : Bool) (picks : Picks) : Run :=
  match Session.forget d path with
  | (changes, none) =>
      concluding [] (remarkIf verbose "session cleared".toList) changes [] picks
  | (changes, some failure) => failing [] [] changes [] path picks failure

/-- Does some work with the session that is kept, and keeps it again. -/
def working
    (d : Disk) (path : Path) (verbose : Bool) (picks : Picks) (tag : Nat)
    (work : Session → Work) : Run :=
  match Session.isKept d path with
  | .error b => broken b [] [] [] picks
  | .ok isKept =>
      let errors :=
        if isKept then []
        else remarkIf verbose "no session, opening a new one".toList
      match Session.resume d path with
      | .error failure => failing [] errors [] [] path picks failure
      | .ok session =>
          let work := work session
          match work.breakdown? with
          | some b => broken b work.output errors [] picks
          | none =>
              match work.session.keep d path tag with
              | (changes, none) =>
                  concluding work.output errors changes work.complaints picks
              | (changes, some failure) =>
                  failing work.output errors changes work.complaints path picks failure

/-- Carries out a request. -/
def ofRequest (d : Disk) (picks : Picks) (tag : Nat) (r : Request) : Run :=
  match r.options.session? with
  | none => broken .noPath [] [] [] picks
  | some text =>
      let path := Path.ofText text
      if r.command ≠ .input ∧ r.words ≠ [] then mistaken (.furtherWords r.command) picks
      else
        let working := working d path r.options.verbose picks tag
        match r.command with
        | .clear => clearing d path r.options.verbose picks
        | .input => working fun s => Work.evaluating s r.options.quiet r.words
        | .print => working fun s => Work.showing s s.stack.render
        | .bindings => working fun s => Work.showing s s.bindings.render

/-- What a run does with the given arguments. -/
def ofArguments (d : Disk) (picks : Picks) (tag : Nat) (arguments : List Text) : Run :=
  if arguments.isEmpty then ⟨.returned, Usage.introduction, [], [], picks⟩
  else
    match Demand.ofTexts arguments with
    | .error m => mistaken m picks
    | .ok .help => ⟨.status 0, Usage.help, [], [], picks⟩
    | .ok (.request r) => ofRequest d picks tag r

end Run

end ReversePolish
