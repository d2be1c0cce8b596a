import ReversePolish.Proofs.Command.Working
import ReversePolish.Proofs.Disk.Moments
import ReversePolish.Proofs.Session.RoundTrip

/-!
# Looking at a session

A run that shows the stack or the bindings also writes the file of the session
again.  The file may change by that, for there are many ways to write a
session: with blanks and escapes, with names given twice or in another order,
with members that mean nothing.  What it says does not change, and written
once by the program it stays as it is, byte for byte, however often it is
looked at.
-/

namespace ReversePolish

/-- What can be looked at in a session. -/
inductive View where
  | stack
  | bindings
deriving DecidableEq, Repr

namespace View

/-- The command that shows it. -/
def command : View → Command
  | stack => .print
  | bindings => .bindings

/-- How it is shown. -/
def render : View → Session → Text
  | stack, s => s.stack.render
  | bindings, s => s.bindings.render

end View

/-- What decides a run that looks at a session, besides the disk. -/
structure Look where
  view : View
  options : Options
  path : Text
  named : options.session? = some path
  picks : Picks
  tag : Nat

namespace Look

variable {d : Disk} {s : Session} (l : Look)

/-- The run. -/
def run (d : Disk) : Run :=
  .ofRequest d l.picks l.tag ⟨l.options, l.view.command, []⟩

/-- The disk after the run. -/
def after (d : Disk) : Disk :=
  d.applyAll (l.run d).changes

/-- The disk after such runs, one after the other, at any sessions. -/
def afterAll (d : Disk) (looks : List Look) : Disk :=
  looks.foldl (fun d l => l.after d) d

theorem run_eq_working
    (d : Disk) :
    l.run d = .working d (.ofText l.path) l.options.verbose l.picks l.tag
      fun s => Work.showing s (l.view.render s) := by
  obtain ⟨view, options, path, hnamed, picks, tag⟩ := l
  cases view with
  | stack => simp [run, Run.ofRequest, View.command, View.render, hnamed]
  | bindings => simp [run, Run.ofRequest, View.command, View.render, hnamed]

/-- A run that looks at a session shows it and keeps it as it is. -/
theorem run_of_resume
    (hresume : Session.resume d (.ofText l.path) = .ok s) :
    ∃ errors, l.run d = .concluding (Text.lines [l.view.render s]) errors
      (s.keep d (.ofText l.path) l.tag).1
      ((d.saving (.ofText l.path) l.tag s.toBytes).error?.map fun e =>
        Complaint.ofProblem (.ofText l.path) (Problem.unwritable e).message).toList l.picks := by
  rw [run_eq_working]
  exact Run.working_of_kept l.options.verbose l.picks l.tag
    (fun s => Work.showing s (l.view.render s)) hresume rfl

/-- The disk is as it was, or the file of the session has been written again. -/
theorem after_cases
    (hhere : Path.up ∉ d.here) :
    l.after d = d ∨
      ∃ s, Session.resume d (.ofText l.path) = .ok s ∧
        d.IsReady (.ofText l.path) l.tag ∧
        l.after d = d.put (d.locate (.ofText l.path)) (.file s.toBytes) := by
  cases hresume : Session.resume d (.ofText l.path) with
  | error failure =>
      left
      rw [after, run_eq_working, (Run.working_of_failure _ _ _ _ hresume).1, Disk.applyAll_nil]
  | ok s =>
      obtain ⟨errors, hrun⟩ := l.run_of_resume hresume
      have hafter :
          l.after d = d.applyAll (d.saving (.ofText l.path) l.tag s.toBytes).made := by
        rw [after, hrun]
        rfl
      rw [hafter]
      cases herror : (d.saving (.ofText l.path) l.tag s.toBytes).error? with
      | some e => exact Or.inl (Disk.applyAll_saving_of_error hhere herror)
      | none =>
          have hready := Disk.isReady_of_saving hhere herror
          exact Or.inr ⟨s, rfl, hready, hready.applyAll_saving hhere s.toBytes⟩

theorem here_after
    (hhere : Path.up ∉ d.here) :
    (l.after d).here = d.here := by
  rcases l.after_cases hhere with hafter | ⟨s, -, -, hafter⟩
  · rw [hafter]
  · rw [hafter]
    rfl

/-- A file that the program wrote is left as it is, whichever session is looked at and whether or
not that one can be written again. -/
theorem read_after
    {p : Path}
    (hhere : Path.up ∉ d.here)
    (hread : d.read p = .ok s.toBytes)
    (hsession : Session.ofBytes s.toBytes = .ok s) :
    (l.after d).read p = .ok s.toBytes := by
  rcases l.after_cases hhere with hafter | ⟨t, hresume, hready, hafter⟩
  · rw [hafter, hread]
  · rw [hafter]
    rcases Disk.read_put_cases hready.notFolder hread t.toBytes with hkept | ⟨hentry, hput⟩
    · exact hkept
    · -- The path of the session leads to this very file, so it is the session of the file.
      have hfile : d.read (.ofText l.path) = .ok s.toBytes :=
        Disk.read_of_reach hready.reach hentry
      rw [Session.resume_of_read hfile, hsession] at hresume
      cases hresume
      exact hput

theorem read_afterAll
    {p : Path} (looks : List Look)
    (hhere : Path.up ∉ d.here)
    (hread : d.read p = .ok s.toBytes)
    (hsession : Session.ofBytes s.toBytes = .ok s) :
    (afterAll d looks).read p = .ok s.toBytes := by
  induction looks generalizing d with
  | nil => exact hread
  | cons l rest ih =>
      refine ih ?_ (l.read_after hhere hread hsession)
      rw [l.here_after hhere]
      exact hhere

/-- **Looking at a session does not change it.**  Its file is written anew at first, and from then
on it stays as it is, also when other sessions are looked at; a file that the program wrote stays
as it is from the beginning. -/
theorem after_keeps_session
    {content : List UInt8}
    (hhere : Path.up ∉ d.here)
    (hread : d.read (.ofText l.path) = .ok content)
    (hsession : Session.ofBytes content = .ok s)
    (hkeep : (s.keep d (.ofText l.path) l.tag).2 = none) :
    (l.run d).ending = .status 0 ∧
      (l.run d).output = Text.lines [l.view.render s] ∧
      (l.after d).read (.ofText l.path) = .ok s.toBytes ∧
      Session.ofBytes s.toBytes = .ok s ∧
      (∀ further : List Look,
        (afterAll (l.after d) further).read (.ofText l.path) = .ok s.toBytes) ∧
      ∀ t : Session, t.Possible → content = t.toBytes → s.toBytes = content := by
  have hresume : Session.resume d (.ofText l.path) = .ok s := by
    rw [Session.resume_of_read hread, hsession]
  obtain ⟨errors, hrun⟩ := l.run_of_resume hresume
  rw [Option.map_eq_none_iff.1 hkeep] at hrun
  have hafter : (l.after d).read (.ofText l.path) = .ok s.toBytes := by
    rw [after, hrun]
    exact Session.read_of_keep hhere hkeep
  obtain ⟨hvalid, horderly⟩ := Session.isValid_of_ofBytes hsession
  have hagain : Session.ofBytes s.toBytes = .ok s := Session.ofBytes_toBytes hvalid horderly
  refine ⟨?_, ?_, hafter, hagain, ?_, ?_⟩
  · rw [hrun]
    rfl
  · rw [hrun]
    rfl
  · intro further
    refine read_afterAll further ?_ hafter hagain
    rw [l.here_after hhere]
    exact hhere
  · rintro t hpossible rfl
    obtain ⟨-, rfl⟩ := Session.ofBytes_toBytes_eq_ok_iff.1 hsession
    rw [Session.ofRecord_toRecord (Session.possible_iff.1 hpossible)]

/-- A file with an escape, a member that means nothing and a name that is given twice.  Later it is
also looked at under another path. -/
theorem after_keeps_session_repeated_name :
    let path := "session.json".toList
    let content := Text.Utf8.encode
      ("\x7b\"variables\": [[\"A\", \"7\"], [\"K\", \"1\"], [\"A\", \"8\"]], ".toList ++
        "\"x\": null,\n \"stack\": [\"\\u0041\"]\x7d".toList)
    let written := Text.Utf8.encode
      "\x7b\"stack\": [\"A\"], \"variables\": [[\"A\", \"8\"], [\"K\", \"1\"]]\x7d".toList
    let d : Disk := ⟨[([path], .file content)], []⟩
    let l : Look := ⟨.bindings, .standard, path, rfl, ⟨[], 0⟩, 0⟩
    let detour := "./session.json".toList
    let other : Look := ⟨.stack, ⟨some detour, true, false⟩, detour, rfl, ⟨[], 0⟩, 1⟩
    let s : Session :=
      .ofRecord ⟨["A".toList], [("A".toList, "8".toList), ("K".toList, "1".toList)]⟩
    Session.ofBytes content = .ok s ∧
      (l.run d).output = "\x7b\n\t[A: 8]\n\t[K: 1]\n\x7d\n".toList ∧
      (l.after d).read (.ofText path) = .ok written ∧
      (afterAll (l.after d) [other, l]).read (.ofText path) = .ok written := by
  intro path content written d l detour other s
  have hsession : Session.ofBytes content = .ok s := by
    have hsome : (Session.ofBytes content).toOption = some s := by
      decide +kernel
    cases hbytes : Session.ofBytes content with
    | ok t =>
        rw [hbytes] at hsome
        exact congrArg Except.ok (Option.some.inj hsome)
    | error failure =>
        rw [hbytes] at hsome
        cases hsome
  have hwritten : s.toBytes = written := by
    decide +kernel
  have hrender : Text.lines [View.bindings.render s] =
      "\x7b\n\t[A: 8]\n\t[K: 1]\n\x7d\n".toList := by
    decide +kernel
  have hhere : Path.up ∉ d.here := List.not_mem_nil
  have hread : d.read (.ofText path) = .ok content := by
    decide +kernel
  have hkeep : (s.keep d (.ofText path) l.tag).2 = none := by
    decide +kernel
  obtain ⟨-, houtput, hafter, -, hfurther, -⟩ := l.after_keeps_session hhere hread hsession hkeep
  rw [← hwritten, ← hrender]
  exact ⟨hsession, houtput, hafter, hfurther [other, l]⟩

end Look

end ReversePolish
