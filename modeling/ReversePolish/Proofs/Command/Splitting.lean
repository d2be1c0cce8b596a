import ReversePolish.Proofs.Command.Working
import ReversePolish.Proofs.Disk.Saving
import ReversePolish.Proofs.Session.Resuming

/-!
# Calculations over several runs

Between two runs a session goes through its file and comes back as it was.  So
an expression may be given in one run or in two, if the first of them goes
through: the disk ends up the same, the echoes come in the same order, and a
word that fails is reported further on by the number of words in the first
piece.
-/

namespace ReversePolish

namespace Work

theorem echo_behind
    (quiet : Bool) (e : Evaluation) (steps : List Step) :
    echo quiet (e.behind steps) =
      (if quiet then [] else Text.lines (steps.map fun step => step.stack.render)) ++
        echo quiet e := by
  cases quiet with
  | true => rfl
  | false =>
      simp only [echo, Bool.false_eq_true, if_false, Evaluation.steps_behind, Text.lines,
        List.map_append, List.flatMap_append]

end Work

namespace Run

/-- What evaluating an expression in a run comes to. -/
theorem ofRequest_input
    {d : Disk} {options : Options} {path : Text} {s : Session} {words : List Text} {tag : Nat}
    (picks : Picks)
    (hhere : Path.up ∉ d.here)
    (hpath : options.session? = some path)
    (hresume : Session.resume d (.ofText path) = .ok s)
    (hready : d.IsReady (.ofText path) tag)
    (hreadable : ∀ f, (s.evaluate words).halt? ≠ some (.unreadable f)) :
    let run := ofRequest d picks tag ⟨options, .input, words⟩
    run.ending = .status (if (s.evaluate words).halt?.isNone then 0 else 1) ∧
      run.output = Work.echo options.quiet (s.evaluate words) ∧
      d.applyAll run.changes =
        d.put (d.locate (.ofText path)) (.file (s.evaluate words).session.toBytes) := by
  have hwork : ∃ complaints, Work.evaluating s options.quiet words =
      ⟨(s.evaluate words).session, Work.echo options.quiet (s.evaluate words), complaints, none⟩ ∧
        complaints.isEmpty = (s.evaluate words).halt?.isNone := by
    cases hhalt : (s.evaluate words).halt? with
    | none => exact ⟨[], Work.evaluating_of_done options.quiet hhalt, rfl⟩
    | some halt =>
        cases halt with
        | stopped word spot cause =>
            obtain ⟨complaint, hcomplaint⟩ := Work.evaluating_of_stopped options.quiet hhalt
            exact ⟨[complaint], hcomplaint, rfl⟩
        | unreadable f => exact absurd hhalt (hreadable f)
  obtain ⟨complaints, hwork, hempty⟩ := hwork
  have hsaving : ∀ content, (d.saving (.ofText path) tag content).error? = none := by
    intro content
    rw [hready.saving_eq hhere]
  obtain ⟨errors, hrun⟩ :=
    working_of_resume options.verbose picks tag (fun s => Work.evaluating s options.quiet words)
      hresume (hsaving _) (by rw [hwork])
  rw [ofRequest_input_eq_working d picks tag hpath, hrun, hwork]
  refine ⟨?_, rfl, hready.applyAll_saving hhere _⟩
  rw [← hempty]
  rfl

/-- A run that goes on where the session of another one was kept. -/
theorem ofRequest_input_of_kept
    {d : Disk} {options : Options} {path : Text} {s : Session} {u v : List Text}
    {tagV tagWhole : Nat} (picksV picksWhole : Picks)
    (hhere : Path.up ∉ d.here)
    (hpath : options.session? = some path)
    (hresume : Session.resume d (.ofText path) = .ok s)
    (hreadyV : d.IsReady (.ofText path) tagV)
    (hreadyWhole : d.IsReady (.ofText path) tagWhole)
    (hu : ∀ t ∈ u, t.IsClassifiable)
    (hv : ∀ t ∈ v, t.IsClassifiable)
    (hdone : (s.evaluate u).halt? = none) :
    let between := d.put (d.locate (.ofText path)) (.file (s.evaluate u).session.toBytes)
    let second := ofRequest between picksV tagV ⟨options, .input, v⟩
    let whole := ofRequest d picksWhole tagWhole ⟨options, .input, u ++ v⟩
    second.ending = whole.ending ∧
      between.applyAll second.changes = d.applyAll whole.changes ∧
      (d.applyAll whole.changes).read (.ofText path) =
        .ok (s.evaluate (u ++ v)).session.toBytes ∧
      Work.echo options.quiet (s.evaluate u) ++ second.output = whole.output ∧
      Session.resume between (.ofText path) = .ok (s.evaluate u).session := by
  intro between second whole
  obtain ⟨hvalid, horderly⟩ := Session.isValid_of_resume hresume
  have hvalidU : (s.evaluate u).session.IsValid := hvalid.evaluate u
  have huv : ∀ t ∈ u ++ v, t.IsClassifiable := List.forall_mem_append.2 ⟨hu, hv⟩
  have hresumeBetween : Session.resume between (.ofText path) = .ok (s.evaluate u).session := by
    rw [Session.resume, hreadyV.read_put]
    exact Session.ofBytes_toBytes hvalidU (Session.isOrderly_evaluate horderly u)
  have hwhole : s.evaluate (u ++ v) =
      (((s.evaluate u).session.evaluate v).shift u.length).behind (s.evaluate u).steps := by
    rw [Session.evaluate_append s hu hv, Evaluation.andThen_of_done _ hdone]
  obtain ⟨hendingV, houtputV, hdiskV⟩ := ofRequest_input (d := between) picksV hhere hpath
    hresumeBetween (hreadyV.put _) (hvalidU.evaluate_ne_unreadable hv)
  obtain ⟨hendingW, houtputW, hdiskW⟩ := ofRequest_input picksWhole hhere hpath hresume
    hreadyWhole (hvalid.evaluate_ne_unreadable huv)
  refine ⟨?_, ?_, ?_, ?_, hresumeBetween⟩
  · rw [hendingV, hendingW, hwhole, Evaluation.halt?_behind, Evaluation.halt?_shift,
      Option.isNone_map]
  · -- The file of the first run makes way for that of the second.
    rw [hdiskV, hdiskW, hwhole]
    exact Disk.put_put d _ _ _
  · rw [hdiskW]
    exact hreadyWhole.read_put _
  · rw [houtputV, houtputW, hwhole, Work.echo_behind]
    rfl

/-- **An expression may be given in one run or in two.**  The current folder is given by names
alone, as it always is. -/
theorem input_append
    {d : Disk} {options : Options} {path : Text} {s : Session} {u v : List Text}
    {tagU tagV tagWhole : Nat} (picksU picksV picksWhole : Picks)
    (hhere : Path.up ∉ d.here)
    (hpath : options.session? = some path)
    (hresume : Session.resume d (.ofText path) = .ok s)
    (hsaving : ∀ tag ∈ [tagU, tagV, tagWhole], (d.saving (.ofText path) tag []).error? = none)
    (hu : ∀ t ∈ u, t.IsClassifiable)
    (hv : ∀ t ∈ v, t.IsClassifiable)
    (hexit : (ofRequest d picksU tagU ⟨options, .input, u⟩).ending = .status 0) :
    let first := ofRequest d picksU tagU ⟨options, .input, u⟩
    let between := d.applyAll first.changes
    let second := ofRequest between picksV tagV ⟨options, .input, v⟩
    let whole := ofRequest d picksWhole tagWhole ⟨options, .input, u ++ v⟩
    second.ending = whole.ending ∧
      between.applyAll second.changes = d.applyAll whole.changes ∧
      (d.applyAll whole.changes).read (.ofText path) =
        .ok (s.evaluate (u ++ v)).session.toBytes ∧
      first.output ++ second.output = whole.output ∧
      ∃ t, Session.resume between (.ofText path) = .ok t ∧
        ∀ word spot cause, (t.evaluate v).halt? = some (.stopped word spot cause) →
          (s.evaluate (u ++ v)).halt? = some (.stopped word (u.length + spot) cause) := by
  have hready : ∀ tag ∈ [tagU, tagV, tagWhole], d.IsReady (.ofText path) tag :=
    fun tag htag => Disk.isReady_of_saving hhere (hsaving tag htag)
  simp only [List.forall_mem_cons] at hready
  obtain ⟨hreadyU, hreadyV, hreadyWhole, -⟩ := hready
  have hreadable := (Session.isValid_of_resume hresume).1.evaluate_ne_unreadable hu
  obtain ⟨hending, houtput, hdisk⟩ :=
    ofRequest_input picksU hhere hpath hresume hreadyU hreadable
  have hdone : (s.evaluate u).halt? = none := by
    rw [hending] at hexit
    cases hhalt : (s.evaluate u).halt? with
    | none => rfl
    | some halt =>
        rw [hhalt] at hexit
        cases hexit
  intro first between second whole
  obtain ⟨hsame, hdiskWhole, hread, hshown, hresumeBetween⟩ :=
    ofRequest_input_of_kept picksV picksWhole hhere hpath hresume hreadyV hreadyWhole hu hv hdone
  rw [← hdisk] at hsame hdiskWhole hshown hresumeBetween
  rw [← houtput] at hshown
  refine ⟨hsame, hdiskWhole, hread, hshown, _, hresumeBetween, ?_⟩
  intro word spot cause hhalt
  rw [Session.evaluate_append s hu hv, Evaluation.andThen_of_done _ hdone,
    Evaluation.halt?_behind, Evaluation.halt?_shift, hhalt]
  rfl

/-- A division that fails in the second run, and in the whole one. -/
theorem input_append_division :
    let d : Disk := ⟨[], []⟩
    let u : List Text := ["A".toList, "7".toList, "=".toList]
    let v : List Text := ["0".toList, "A".toList, "/".toList]
    let first := ofRequest d ⟨[], 0⟩ 0 ⟨.standard, .input, u⟩
    let between := d.applyAll first.changes
    let second := ofRequest between ⟨[], 0⟩ 1 ⟨.standard, .input, v⟩
    let whole := ofRequest d ⟨[], 0⟩ 2 ⟨.standard, .input, u ++ v⟩
    second.ending = .status 1 ∧ whole.ending = .status 1 ∧
      between.applyAll second.changes = d.applyAll whole.changes ∧
      first.output ++ second.output = whole.output := by
  intro d u v first between second whole
  have hresume : Session.resume d (.ofText "session.json".toList) = .ok .fresh := rfl
  have hsaving : ∀ tag ∈ [0, 1, 2],
      (d.saving (.ofText "session.json".toList) tag []).error? = none := by
    decide +kernel
  have hu : Word.classify u = .ok
      [⟨"A".toList, 0, some (.name 'A')⟩, ⟨"7".toList, 1, some (.integer 7)⟩,
        ⟨"=".toList, 2, some (.operator .assign)⟩] := by
    decide +kernel
  have hv : Word.classify v = .ok
      [⟨"0".toList, 0, some (.integer 0)⟩, ⟨"A".toList, 1, some (.name 'A')⟩,
        ⟨"/".toList, 2, some (.operator (.arithmetic .divide))⟩] := by
    decide +kernel
  have hexit : first.ending = .status 0 := by
    decide +kernel
  have hfails : second.ending = .status 1 := by
    decide +kernel
  obtain ⟨hending, hdisk, -, hshown, -⟩ :=
    input_append ⟨[], 0⟩ ⟨[], 0⟩ ⟨[], 0⟩ List.not_mem_nil rfl hresume hsaving
      (Word.exists_classify_iff.1 ⟨_, hu⟩) (Word.exists_classify_iff.1 ⟨_, hv⟩) hexit
  exact ⟨hfails, hending.symm.trans hfails, hdisk, hshown⟩

end Run

end ReversePolish
