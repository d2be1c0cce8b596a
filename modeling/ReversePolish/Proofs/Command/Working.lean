import ReversePolish.Command.Run
import ReversePolish.Proofs.Session.Failure
import ReversePolish.Proofs.Session.Reading
import ReversePolish.Proofs.Session.Splitting

/-!
# What runs come to

A run that works on a session goes one of four ways.  It is broken off if the
disk does not say whether there is a session, or if the session breaks
resuming off; it complains if there is a problem with the session; it is
broken off by its work; or it keeps the session that its work has made, and
complains of what the work and the keeping met.  A request is such a run,
unless it asks for the file to be removed, names no file or has words that
its command does not take.
-/

namespace ReversePolish

namespace Complaint

theorem exists_ofStop?
    {words : List Text} {spot : Nat} (cause : Cause)
    (h : spot < words.length) :
    ∃ complaint, ofStop? words spot cause = some complaint := by
  rw [ofStop?, Excerpt.ofWord?, Position.ofIndex?_natCast h]
  exact ⟨_, rfl⟩

end Complaint

namespace Work

/-- What an evaluation shows. -/
def echo (quiet : Bool) (e : Evaluation) : Text :=
  if quiet then [] else Text.lines (e.steps.map fun step => step.stack.render)

theorem evaluating_of_done
    {s : Session} {words : List Text} (quiet : Bool)
    (h : (s.evaluate words).halt? = none) :
    evaluating s quiet words =
      ⟨(s.evaluate words).session, echo quiet (s.evaluate words), [], none⟩ := by
  rw [evaluating, h]
  rfl

theorem evaluating_of_stopped
    {s : Session} {words : List Text} {word : Text} {spot : Nat} {cause : Cause} (quiet : Bool)
    (h : (s.evaluate words).halt? = some (.stopped word spot cause)) :
    ∃ complaint, evaluating s quiet words =
      ⟨(s.evaluate words).session, echo quiet (s.evaluate words), [complaint], none⟩ := by
  obtain ⟨complaint, hcomplaint⟩ :=
    Complaint.exists_ofStop? cause (Session.spot_lt_length h)
  refine ⟨complaint, ?_⟩
  rw [evaluating, h]
  simp only [hcomplaint]
  rfl

theorem evaluating_of_unreadable
    {s : Session} {words : List Text} {f : Numeral.Fault} (quiet : Bool)
    (h : (s.evaluate words).halt? = some (.unreadable f)) :
    evaluating s quiet words =
      ⟨(s.evaluate words).session, echo quiet (s.evaluate words), [], some (.numeral f)⟩ := by
  rw [evaluating, h]
  rfl

end Work

/-- What a request makes of the session it works on; one to remove the file leaves it as it is. -/
def Request.work (r : Request) (s : Session) : Work :=
  match r.command with
  | .input => Work.evaluating s r.options.quiet r.words
  | .print => Work.showing s s.stack.render
  | .bindings => Work.showing s s.bindings.render
  | .clear => ⟨s, [], [], none⟩

namespace Run

section Failing

variable (output errors : Text) (changes : List Change) (complaints : List Complaint)
variable (path : Path) (picks : Picks) (failure : Failure)

@[simp] theorem changes_failing :
    (failing output errors changes complaints path picks failure).changes = changes := by
  cases failure <;> rfl

@[simp] theorem output_failing :
    (failing output errors changes complaints path picks failure).output = output := by
  cases failure <;> rfl

end Failing

section Working

variable {d : Disk} {path : Path}
variable (verbose : Bool) (picks : Picks) (tag : Nat) (work : Session → Work)

/-- A session that is not resumed is left alone, and nothing is shown. -/
theorem working_of_failure
    {failure : Failure}
    (hresume : Session.resume d path = .error failure) :
    (working d path verbose picks tag work).changes = [] ∧
      (working d path verbose picks tag work).output = [] := by
  cases hkept : Session.isKept d path with
  | error b => simp only [working, hkept, broken, and_self]
  | ok kept => simp only [working, hkept, hresume, changes_failing, output_failing, and_self]

/-- A problem with a session that is looked for is what the run complains of. -/
theorem working_of_problem
    {kept : Bool} {problem : Problem}
    (hkept : Session.isKept d path = .ok kept)
    (hresume : Session.resume d path = .error (.problem problem)) :
    ∃ errors, working d path verbose picks tag work =
      concluding [] errors [] [Complaint.ofProblem path problem.message] picks := by
  refine ⟨if kept then [] else remarkIf verbose "no session, opening a new one".toList, ?_⟩
  simp only [working, hkept, hresume]
  rfl

/-- Work that is broken off keeps nothing. -/
theorem working_of_broken
    {s : Session} {b : Breakdown}
    (hresume : Session.resume d path = .ok s)
    (hwork : (work s).breakdown? = some b) :
    ∃ errors, working d path verbose picks tag work =
      broken b (work s).output errors [] picks := by
  obtain ⟨kept, hkept⟩ := Session.exists_isKept_of_resume hresume
  refine ⟨if kept then [] else remarkIf verbose "no session, opening a new one".toList, ?_⟩
  simp only [working, hkept, hresume, hwork]

/-- Work that is not broken off is kept, as far as that can be done. -/
theorem working_of_kept
    {s : Session}
    (hresume : Session.resume d path = .ok s)
    (hwork : (work s).breakdown? = none) :
    ∃ errors, working d path verbose picks tag work =
      concluding (work s).output errors ((work s).session.keep d path tag).1
        ((work s).complaints ++
          ((d.saving path tag (work s).session.toBytes).error?.map fun e =>
            Complaint.ofProblem path (Problem.unwritable e).message).toList) picks := by
  obtain ⟨kept, hkept⟩ := Session.exists_isKept_of_resume hresume
  refine ⟨if kept then [] else remarkIf verbose "no session, opening a new one".toList, ?_⟩
  have hkeep := Session.keep_snd_of_not_holdsNul (work s).session d tag
    (Session.not_holdsNul_of_resume hresume)
  simp only [working, hkept, hresume, hwork]
  generalize (work s).session.keep d path tag = keeping at hkeep ⊢
  obtain ⟨changes, failure?⟩ := keeping
  obtain rfl : failure? = _ := hkeep
  cases (d.saving path tag (work s).session.toBytes).error? with
  | none => simp only [Option.map_none, Option.toList_none, List.append_nil]
  | some e => rfl

/-- Whatever the session is, working on it is broken off, complains of the session or comes to keep
what the work has made of it. -/
theorem working_cases
    (d : Disk) (path : Path) :
    (∃ b output errors,
        working d path verbose picks tag work = broken b output errors [] picks) ∨
      (∃ errors problem, working d path verbose picks tag work =
        concluding [] errors [] [Complaint.ofProblem path problem] picks) ∨
      ∃ s errors complaints, Session.resume d path = .ok s ∧
        working d path verbose picks tag work =
          concluding (work s).output errors ((work s).session.keep d path tag).1 complaints
            picks := by
  cases hresume : Session.resume d path with
  | ok s =>
      cases hwork : (work s).breakdown? with
      | some b =>
          obtain ⟨errors, hworking⟩ := working_of_broken verbose picks tag work hresume hwork
          exact Or.inl ⟨b, _, errors, hworking⟩
      | none =>
          obtain ⟨errors, hworking⟩ := working_of_kept verbose picks tag work hresume hwork
          exact Or.inr (Or.inr ⟨s, errors, _, rfl, hworking⟩)
  | error failure =>
      cases hkept : Session.isKept d path with
      | error b => exact Or.inl ⟨b, [], [], by simp only [working, hkept]⟩
      | ok kept =>
          cases failure with
          | problem problem =>
              obtain ⟨errors, hworking⟩ := working_of_problem verbose picks tag work hkept hresume
              exact Or.inr (Or.inl ⟨errors, _, hworking⟩)
          | breakdown b =>
              refine Or.inl ⟨b, [],
                if kept then [] else remarkIf verbose "no session, opening a new one".toList, ?_⟩
              simp only [working, hkept, hresume]
              rfl

/-- What a run comes to that resumes a session and keeps it again. -/
theorem working_of_resume
    {s : Session}
    (hresume : Session.resume d path = .ok s)
    (hsaving : (d.saving path tag (work s).session.toBytes).error? = none)
    (hwork : (work s).breakdown? = none) :
    ∃ errors, working d path verbose picks tag work =
      concluding (work s).output errors (d.saving path tag (work s).session.toBytes).made
        (work s).complaints picks := by
  obtain ⟨errors, hworking⟩ := working_of_kept verbose picks tag work hresume hwork
  refine ⟨errors, hworking.trans ?_⟩
  simp only [Session.keep, hsaving, Option.map_none, Option.toList_none, List.append_nil]

end Working

/-- A command that takes no words and has some is a mistake. -/
theorem ofRequest_eq_mistaken
    {r : Request} {path : Text} (d : Disk) (picks : Picks) (tag : Nat)
    (hpath : r.options.session? = some path)
    (hcommand : r.command ≠ .input)
    (hwords : r.words ≠ []) :
    ofRequest d picks tag r = mistaken (.furtherWords r.command) picks := by
  simp only [ofRequest, hpath, if_pos (And.intro hcommand hwords)]

theorem ofRequest_eq_clearing
    {r : Request} {path : Text} (d : Disk) (picks : Picks) (tag : Nat)
    (hpath : r.options.session? = some path)
    (hcommand : r.command = .clear)
    (hwords : r.words = []) :
    ofRequest d picks tag r = clearing d (.ofText path) r.options.verbose picks := by
  simp [ofRequest, hpath, hcommand, hwords]

/-- A request that does not remove the file works on its session. -/
theorem ofRequest_eq_working
    {r : Request} {path : Text} (d : Disk) (picks : Picks) (tag : Nat)
    (hpath : r.options.session? = some path)
    (hcommand : r.command ≠ .clear)
    (hwords : r.command = .input ∨ r.words = []) :
    ofRequest d picks tag r =
      working d (.ofText path) r.options.verbose picks tag r.work := by
  have hfurther : ¬ (r.command ≠ .input ∧ r.words ≠ []) := by
    rintro ⟨hinput, hnonempty⟩
    exact hwords.elim hinput hnonempty
  rw [ofRequest, hpath]
  simp only [if_neg hfurther]
  obtain ⟨options, command, words⟩ := r
  cases command with
  | clear => exact absurd rfl hcommand
  | input => rfl
  | print => rfl
  | bindings => rfl

theorem ofRequest_input_eq_working
    {options : Options} {path : Text} (d : Disk) (picks : Picks) (tag : Nat)
    (hpath : options.session? = some path)
    (words : List Text) :
    ofRequest d picks tag ⟨options, .input, words⟩ =
      working d (.ofText path) options.verbose picks tag
        fun s => Work.evaluating s options.quiet words := by
  simp [ofRequest, hpath]

theorem ofArguments_of_request
    {arguments : List Text} {r : Request} (d : Disk) (picks : Picks) (tag : Nat)
    (h : Demand.ofTexts arguments = .ok (.request r)) :
    ofArguments d picks tag arguments = ofRequest d picks tag r := by
  cases arguments with
  | nil => cases h
  | cons first rest => simp only [ofArguments, h, List.isEmpty_cons, Bool.false_eq_true, if_false]

theorem ofArguments_of_mistake
    {arguments : List Text} {m : Mistake} (d : Disk) (picks : Picks) (tag : Nat)
    (hne : arguments ≠ [])
    (h : Demand.ofTexts arguments = .error m) :
    ofArguments d picks tag arguments = mistaken m picks := by
  rw [ofArguments, List.isEmpty_eq_false_iff.2 hne]
  simp only [Bool.false_eq_true, if_false, h]

end Run

end ReversePolish
