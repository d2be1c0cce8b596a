import ReversePolish.Proofs.Command.Sparing
import ReversePolish.Proofs.Disk.Ways
import ReversePolish.Proofs.Session.Keeping
import ReversePolish.Proofs.Session.Reachability

/-!
# What the disk refuses is told

A run may find that the disk does not let it read, write or remove the file of
the session.  It tells so in a complaint that names the file, and ends with
status 1.

There is one thing that it does not tell.  A run that works on a session asks
first whether there is one, and if the path is too long the disk does not say.
Then the run is broken off.  A request to remove the file does not ask, and
for the same path it complains.

A path that holds the character NUL is none that a disk refuses: no disk gets
to see it, and every run is broken off.
-/

namespace ReversePolish

namespace Request

/-- A request meets a refusal of the disk at the file of its session, which is a problem for it. -/
inductive Meets (d : Disk) (p : Path) (tag : Nat) (r : Request) : Problem → Prop
  | reading {e : Disk.Error}
      (hcommand : r.command ≠ .clear)
      (hread : d.read p = .error e)
      (he : e ≠ .noEntry) : Meets d p tag r (.unreadable e)
  | writing {s : Session} {e : Disk.Error}
      (hcommand : r.command ≠ .clear)
      (hresume : Session.resume d p = .ok s)
      (hsaving : (d.saving p tag (r.work s).session.toBytes).error? = some e) :
      Meets d p tag r (.unwritable e)
  | removing {e : Disk.Error}
      (hcommand : r.command = .clear)
      (hremoving : (d.removing p).error? = some e)
      (he : e ≠ .noEntry) : Meets d p tag r (.irremovable e)

/-- The expression of a request stops at one of its words. -/
def Stops (d : Disk) (p : Path) (r : Request) : Prop :=
  r.command = .input ∧ ∃ s word spot cause, Session.resume d p = .ok s ∧
    (s.evaluate r.words).halt? = some (.stopped word spot cause)

/-- Work on a valid session is not broken off, and it complains exactly when it stops at a word. -/
theorem work_of_isValid
    {r : Request} {s : Session}
    (hvalid : s.IsValid)
    (hwords : ∀ t ∈ r.words, t.IsClassifiable) :
    (r.work s).breakdown? = none ∧
      ((r.work s).complaints ≠ [] ↔ r.command = .input ∧ ∃ word spot cause,
        (s.evaluate r.words).halt? = some (.stopped word spot cause)) := by
  obtain ⟨options, command, words⟩ := r
  cases command with
  | input =>
      rcases hvalid.evaluate_ends hwords with hdone | ⟨word, spot, cause, -, hstopped⟩
      · simp [work, Work.evaluating_of_done options.quiet hdone, hdone]
      · obtain ⟨complaint, hwork⟩ := Work.evaluating_of_stopped options.quiet hstopped
        simp [work, hwork, hstopped]
  | print => simp [work, Work.showing]
  | bindings => simp [work, Work.showing]
  | clear => simp [work]

end Request

namespace Run

variable {d : Disk} {tag : Nat} {r : Request} {path : Text}

/-- The run comes to its conclusion with complaints about all the problems that the request meets
at the file of its session, and complains of nothing else but a word at which it stops. -/
def Concludes (run : Run) (d : Disk) (p : Path) (tag : Nat) (r : Request) : Prop :=
  ∃ output errors changes complaints picks,
    run = concluding output errors changes complaints picks ∧
      (∀ problem, r.Meets d p tag problem →
        Complaint.ofProblem p problem.message ∈ complaints) ∧
      (complaints ≠ [] ↔ (∃ problem, r.Meets d p tag problem) ∨ r.Stops d p)

theorem Concludes.reports
    {run : Run} {p : Path} {problem : Problem}
    (h : run.Concludes d p tag r)
    (hproblem : r.Meets d p tag problem) :
    run.Reports p problem := by
  obtain ⟨output, errors, changes, complaints, picks, rfl, htold, -⟩ := h
  exact reports_concluding output errors changes (htold problem hproblem) picks

theorem Concludes.ending
    {run : Run} {p : Path}
    (h : run.Concludes d p tag r) :
    (run.ending = .status 0 ∨ run.ending = .status 1) ∧
      (run.ending = .status 1 ↔ (∃ problem, r.Meets d p tag problem) ∨ r.Stops d p) := by
  obtain ⟨output, errors, changes, complaints, picks, rfl, -, hcomplaints⟩ := h
  rw [← hcomplaints]
  cases complaints with
  | nil => simp [concluding]
  | cons complaint rest => simp [concluding]

/-- A request to remove the file always comes to its conclusion. -/
theorem concludes_clearing
    {p : Path}
    (picks : Picks)
    (hnul : ¬ p.HoldsNul)
    (hcommand : r.command = .clear) :
    (clearing d p r.options.verbose picks).Concludes d p tag r := by
  have hmeets : ∀ problem, r.Meets d p tag problem ↔
      (Session.forget d p).2 = some (.problem problem) := by
    intro problem
    rw [Session.forget_snd_eq_some_iff hnul]
    constructor
    · intro h
      cases h with
      | reading hother => exact absurd hcommand hother
      | writing hother => exact absurd hcommand hother
      | removing _ hremoving he => exact ⟨_, hremoving, he, rfl⟩
    · rintro ⟨e, hremoving, he, hproblem⟩
      cases hproblem
      exact .removing hcommand hremoving he
  have hstops : ¬ r.Stops d p := by
    rintro ⟨hinput, -⟩
    rw [hcommand] at hinput
    cases hinput
  simp only [Concludes, hmeets, hstops, or_false]
  rw [clearing]
  split
  · rename_i changes hforget
    exact ⟨_, _, changes, [], picks, rfl, by simp [hforget], by simp [hforget]⟩
  · rename_i changes failure hforget
    obtain ⟨e, -, -, rfl⟩ :=
      (Session.forget_snd_eq_some_iff hnul).1 (congrArg Prod.snd hforget)
    exact ⟨_, _, changes, _, picks, rfl, by simp [hforget], by simp [hforget]⟩

/-- A request that cannot read its session concludes with that. -/
theorem concludes_of_unreadable
    {p : Path} {kept : Bool} {e : Disk.Error}
    (picks : Picks)
    (hnul : ¬ p.HoldsNul)
    (hcommand : r.command ≠ .clear)
    (hkept : Session.isKept d p = .ok kept)
    (hread : d.read p = .error e)
    (he : e ≠ .noEntry) :
    (working d p r.options.verbose picks tag r.work).Concludes d p tag r := by
  have hresume := Session.resume_of_unreadable hnul hread he
  obtain ⟨errors, hrun⟩ := working_of_problem r.options.verbose picks tag r.work hkept hresume
  have hmeets : ∀ problem, r.Meets d p tag problem ↔ problem = .unreadable e := by
    intro problem
    constructor
    · intro h
      cases h with
      | reading _ hother =>
          rw [hread] at hother
          cases hother
          rfl
      | writing _ hother =>
          rw [hresume] at hother
          cases hother
      | removing hclear => exact absurd hclear hcommand
    · rintro rfl
      exact .reading hcommand hread he
  refine ⟨_, errors, _, _, picks, hrun, ?_, ?_⟩
  · intro problem hproblem
    rw [(hmeets problem).1 hproblem]
    exact List.mem_singleton_self _
  · simp [hmeets]

/-- A request that resumes its session concludes with what its work and the keeping meet. -/
theorem concludes_of_resume
    {p : Path} {s : Session}
    (picks : Picks)
    (hcommand : r.command ≠ .clear)
    (hwords : ∀ t ∈ r.words, t.IsClassifiable)
    (hresume : Session.resume d p = .ok s) :
    (working d p r.options.verbose picks tag r.work).Concludes d p tag r := by
  obtain ⟨hdone, htold⟩ := Request.work_of_isValid (Session.isValid_of_resume hresume).1 hwords
  obtain ⟨errors, hrun⟩ := working_of_kept r.options.verbose picks tag r.work hresume hdone
  have hnul := Session.not_holdsNul_of_resume hresume
  -- The session was read, so whatever is met now is met on writing.
  have hmeets : ∀ problem, r.Meets d p tag problem ↔
      (d.saving p tag (r.work s).session.toBytes).error?.map Problem.unwritable =
        some problem := by
    intro problem
    rw [Option.map_eq_some_iff]
    constructor
    · intro h
      cases h with
      | reading _ hread he =>
          rw [Session.resume_of_unreadable hnul hread he] at hresume
          cases hresume
      | writing _ hother hsaving =>
          rw [hresume] at hother
          cases hother
          exact ⟨_, hsaving, rfl⟩
      | removing hclear => exact absurd hclear hcommand
    · rintro ⟨e, hsaving, rfl⟩
      exact .writing hcommand hresume hsaving
  have hstops : r.Stops d p ↔ (r.work s).complaints ≠ [] := by
    rw [htold]
    refine and_congr_right fun _ => ⟨?_, ?_⟩
    · rintro ⟨t, word, spot, cause, ht, hhalt⟩
      rw [hresume] at ht
      cases ht
      exact ⟨word, spot, cause, hhalt⟩
    · rintro ⟨word, spot, cause, hhalt⟩
      exact ⟨s, word, spot, cause, hresume, hhalt⟩
  refine ⟨_, errors, _, _, picks, hrun, ?_, ?_⟩
  · intro problem hproblem
    obtain ⟨e, he, rfl⟩ := Option.map_eq_some_iff.1 ((hmeets problem).1 hproblem)
    simp [he]
  · simp only [hmeets, hstops]
    cases (d.saving p tag (r.work s).session.toBytes).error? <;> simp

/-- A request that works on its session comes to its conclusion if it can ask for the session. -/
theorem concludes_working
    {p : Path} {kept : Bool}
    (picks : Picks)
    (hnul : ¬ p.HoldsNul)
    (hcommand : r.command ≠ .clear)
    (hwords : ∀ t ∈ r.words, t.IsClassifiable)
    (haccepted : ∀ bytes, d.read p = .ok bytes → ∃ s, Session.ofBytes bytes = .ok s)
    (hkept : Session.isKept d p = .ok kept) :
    (working d p r.options.verbose picks tag r.work).Concludes d p tag r := by
  cases hread : d.read p with
  | ok bytes =>
      obtain ⟨s, hs⟩ := haccepted bytes hread
      exact concludes_of_resume picks hcommand hwords ((Session.resume_of_read hread).trans hs)
  | error e =>
      by_cases he : e = .noEntry
      · subst he
        exact concludes_of_resume picks hcommand hwords (Session.resume_of_noEntry hread)
      · exact concludes_of_unreadable picks hnul hcommand hkept hread he

theorem ofRequest_of_isTooLong
    (picks : Picks) (tag : Nat)
    (hpath : r.options.session? = some path)
    (hnul : ¬ (Path.ofText path).HoldsNul)
    (hcommand : r.command ≠ .clear)
    (htaken : r.command = .input ∨ r.words = [])
    (h : d.IsTooLong (.ofText path)) :
    ofRequest d picks tag r = broken (.disk .nameTooLong (.ofText path)) [] [] [] picks := by
  rw [ofRequest_eq_working d picks tag hpath hcommand htaken, working,
    Session.isKept_eq_error_iff.2 ⟨hnul, h, rfl⟩]

/-- Under a path that holds a NUL every request is broken off, and leaves no trace. -/
theorem ofRequest_of_holdsNul
    (picks : Picks) (tag : Nat)
    (hpath : r.options.session? = some path)
    (hnul : (Path.ofText path).HoldsNul)
    (htaken : r.command = .input ∨ r.words = []) :
    (ofRequest d picks tag r).ending = .breakdown (.disk .nulInPath (.ofText path)) ∧
      (ofRequest d picks tag r).IsIdle := by
  by_cases hcommand : r.command = .clear
  · have hnil : r.words = [] := htaken.resolve_left (by simp [hcommand])
    rw [ofRequest_eq_clearing d picks tag hpath hcommand hnil, clearing,
      Session.forget_of_holdsNul d hnul]
    exact ⟨rfl, rfl, rfl⟩
  · rw [ofRequest_eq_working d picks tag hpath hcommand htaken]
    simp only [working, Session.isKept_of_holdsNul d hnul, Session.resume_of_holdsNul d hnul]
    exact ⟨rfl, rfl, rfl⟩

theorem concludes_ofRequest
    (picks : Picks)
    (hpath : r.options.session? = some path)
    (hnul : ¬ (Path.ofText path).HoldsNul)
    (htaken : r.command = .input ∨ r.words = [])
    (hwords : ∀ t ∈ r.words, t.IsClassifiable)
    (haccepted : ∀ bytes, d.read (.ofText path) = .ok bytes →
      ∃ s, Session.ofBytes bytes = .ok s)
    (hasked : r.command = .clear ∨ ¬ d.IsTooLong (.ofText path)) :
    (ofRequest d picks tag r).Concludes d (.ofText path) tag r := by
  by_cases hcommand : r.command = .clear
  · have hnil : r.words = [] := htaken.resolve_left (by simp [hcommand])
    rw [ofRequest_eq_clearing d picks tag hpath hcommand hnil]
    exact concludes_clearing picks hnul hcommand
  · rw [ofRequest_eq_working d picks tag hpath hcommand htaken]
    cases hkept : Session.isKept d (.ofText path) with
    | ok kept => exact concludes_working picks hnul hcommand hwords haccepted hkept
    | error b =>
        exact absurd (Session.isKept_eq_error_iff.1 hkept).2.1 (hasked.resolve_left hcommand)

/-- **What the disk refuses to a run becomes a complaint, unless the path of the session is too long
to be asked for.**  Then a run that works on a session is broken off, while one that removes the
file complains.  All this is for paths that a disk gets to see; one that holds a NUL breaks off
every run. -/
theorem ofRequest_complains
    (d : Disk) (picks : Picks) (tag : Nat) {r : Request} {path : Text}
    (hpath : r.options.session? = some path)
    (hwords : ∀ t ∈ r.words, t.IsClassifiable)
    (haccepted : ∀ bytes, d.read (.ofText path) = .ok bytes →
      ∃ s, Session.ofBytes bytes = .ok s) :
    let p := Path.ofText path
    let run := ofRequest d picks tag r
    (r.command ≠ .input → r.words ≠ [] → run.ending = .status 2 ∧ run.IsIdle) ∧
      (r.command = .input ∨ r.words = [] →
        ('\x00' ∈ path → run.ending = .breakdown (.disk .nulInPath p) ∧ run.IsIdle) ∧
        ('\x00' ∉ path →
          (∀ b, run.ending = .breakdown b ↔
            r.command ≠ .clear ∧ d.IsTooLong p ∧ b = .disk .nameTooLong p) ∧
          (r.command = .clear ∨ ¬ d.IsTooLong p →
            (run.ending = .status 0 ∨ run.ending = .status 1) ∧
              (run.ending = .status 1 ↔ (∃ problem, r.Meets d p tag problem) ∨ r.Stops d p) ∧
              ∀ problem, r.Meets d p tag problem → run.Reports p problem) ∧
          (r.command = .clear → d.IsTooLong p →
            run.Reports p (.irremovable .nameTooLong)))) := by
  intro p run
  refine ⟨fun hcommand hnonempty => ?_, fun htaken => ⟨fun hnul => ?_, fun hnul => ?_⟩⟩
  · have hrun : run = mistaken (.furtherWords r.command) picks :=
      ofRequest_eq_mistaken d picks tag hpath hcommand hnonempty
    rw [hrun]
    exact ⟨rfl, isIdle_mistaken _ picks⟩
  · exact ofRequest_of_holdsNul picks tag hpath (Disk.holdsNul_ofText_iff.2 hnul) htaken
  · have hnul : ¬ p.HoldsNul := fun h => hnul (Disk.holdsNul_ofText_iff.1 h)
    have hconcludes : r.command = .clear ∨ ¬ d.IsTooLong p → run.Concludes d p tag r :=
      concludes_ofRequest picks hpath hnul htaken hwords haccepted
    have hbroken : r.command ≠ .clear → d.IsTooLong p →
        run.ending = .breakdown (.disk .nameTooLong p) := by
      intro hcommand hlong
      rw [show run = _ from ofRequest_of_isTooLong picks tag hpath hnul hcommand htaken hlong]
      rfl
    refine ⟨fun b => ⟨fun hbreakdown => ?_, ?_⟩, ?_, ?_⟩
    · -- A run that comes to its conclusion ends with a status.
      by_cases hasked : r.command = .clear ∨ ¬ d.IsTooLong p
      · have hending := (hconcludes hasked).ending.1
        rw [hbreakdown] at hending
        rcases hending with h | h <;> cases h
      · obtain ⟨hcommand, hlong⟩ := not_or.1 hasked
        have hlong := not_not.1 hlong
        rw [hbroken hcommand hlong] at hbreakdown
        cases hbreakdown
        exact ⟨hcommand, hlong, rfl⟩
    · rintro ⟨hcommand, hlong, rfl⟩
      exact hbroken hcommand hlong
    · intro hasked
      obtain ⟨hstatus, hone⟩ := (hconcludes hasked).ending
      exact ⟨hstatus, hone, fun problem hproblem => (hconcludes hasked).reports hproblem⟩
    · intro hcommand hlong
      exact (hconcludes (Or.inl hcommand)).reports
        (.removing hcommand (by rw [Disk.removing, hlong.removable_eq hnul]) (by decide))

/-- A folder is missing on the way to the session, so that it cannot be written; and a name too long
for a session does not keep a request to remove it from its complaint. -/
theorem ofRequest_complains_missing_folder :
    let path := "no/session.json".toList
    let long : Text := List.replicate 256 'a'
    let d : Disk := ⟨[], []⟩
    let input : Request := ⟨⟨some path, true, false⟩, .input, ["3".toList, "4".toList]⟩
    let clear : Request := ⟨⟨some long, true, false⟩, .clear, []⟩
    let run := ofRequest d ⟨[], 0⟩ 0 input
    run.ending = .status 1 ∧ run.Reports (.ofText path) (.unwritable .noEntry) ∧
      (ofRequest d ⟨[], 0⟩ 0 clear).Reports (.ofText long) (.irremovable .nameTooLong) := by
  intro path long d input clear run
  have hwords : ∀ t ∈ input.words, t.IsClassifiable :=
    Word.exists_classify_iff.1
      ⟨[⟨"3".toList, 0, some (.integer 3)⟩, ⟨"4".toList, 1, some (.integer 4)⟩], by decide +kernel⟩
  have hread : d.read (.ofText path) = .error .noEntry := by
    decide +kernel
  have hreadLong : d.read (.ofText long) = .error .nameTooLong := by
    decide +kernel
  have hshort : ¬ d.IsTooLong (.ofText path) := by
    intro hlong
    have hpresent := Disk.isPresent_eq_error_iff.2 ⟨rfl, by decide, hlong⟩
    have hmissing : d.isPresent (.ofText path) = .ok false := by
      decide +kernel
    rw [hmissing] at hpresent
    cases hpresent
  have hmeets : input.Meets d (.ofText path) 0 (.unwritable .noEntry) :=
    .writing (by decide) (Session.resume_of_noEntry hread) (by decide +kernel)
  have hrefused : d.isPresent (.ofText long) = .error .nameTooLong := by
    decide +kernel
  obtain ⟨-, hrun⟩ := ofRequest_complains d ⟨[], 0⟩ 0 (r := input) rfl hwords
    (fun bytes h => absurd (hread.symm.trans h) (by simp))
  obtain ⟨-, hconcluded, -⟩ := (hrun (Or.inl rfl)).2 (by decide)
  obtain ⟨-, hone, hreports⟩ := hconcluded (Or.inr hshort)
  obtain ⟨-, hclear⟩ := ofRequest_complains d ⟨[], 0⟩ 0 (r := clear) rfl
    (List.forall_mem_nil _) (fun bytes h => absurd (hreadLong.symm.trans h) (by simp))
  obtain ⟨-, -, hirremovable⟩ := (hclear (Or.inr rfl)).2 (by decide +kernel)
  exact ⟨hone.2 (Or.inl ⟨_, hmeets⟩), hreports _ hmeets,
    hirremovable rfl (Disk.isPresent_eq_error_iff.1 hrefused).2.2⟩

/-- A name that is too long for any file breaks off a run that would show the session of that
name. -/
theorem ofArguments_breaks_off_at_long_name :
    let path : Text := List.replicate 256 'a'
    let d : Disk := ⟨[], []⟩
    let run := ofArguments d ⟨[], 0⟩ 0 ["-s".toList, path, "print".toList]
    d.read (.ofText path) = .error .nameTooLong ∧
      run.ending = .breakdown (.disk .nameTooLong (.ofText path)) ∧ run.errors = [] := by
  decide +kernel

end Run

end ReversePolish
