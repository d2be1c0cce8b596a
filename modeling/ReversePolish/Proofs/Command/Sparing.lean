import ReversePolish.Proofs.Command.Working
import ReversePolish.Proofs.Session.Refusal
import ReversePolish.Proofs.Session.RoundTrip

/-!
# What cannot be used is left alone

A run that meets what it cannot use leaves no trace: it neither changes the
disk nor writes to the output.  This is so for mistakes in the arguments, for
a session that is not resumed, and for words that break their evaluation off.
A problem with the session is told on the error output, with the path of its
file and with status 1.

An expression that stops at a word is another matter.  What its words did up
to then is kept, and the status is 1 as well.
-/

namespace ReversePolish

theorem Text.infix_lines
    {piece : Text} {pieces : List Text}
    (h : piece ∈ pieces) :
    piece <:+: lines pieces := by
  obtain ⟨before, after, rfl⟩ := List.append_of_mem h
  refine ⟨lines before, '\n' :: lines after, ?_⟩
  simp [lines]

/-- The complaint about a file names it, and says on the next line what the problem is. -/
theorem Complaint.toText_ofProblem
    (p : Path) (problem : Text) :
    (ofProblem p problem).toText =
      "Something went pear-shaped with the session file ".toList ++ p.toText ++
        '\n' :: problem := by
  have hlines : ∀ first second : Text,
      ['\n'].intercalate [first, second] = first ++ '\n' :: second := by
    intro first second
    simp [List.intercalate]
  exact hlines _ problem

/-- Every complaint is shown in full. -/
theorem Complaint.infix_console
    {c : Complaint} {complaints : List Complaint}
    (h : c ∈ complaints)
    (picks : Picks) :
    c.toText <:+: (console complaints picks).1 := by
  have hnonempty : complaints.isEmpty = false := List.isEmpty_eq_false_iff_exists_mem.2 ⟨c, h⟩
  rw [console, hnonempty]
  refine Text.infix_lines (List.mem_cons_of_mem _ (List.mem_cons_of_mem _ ?_))
  exact List.mem_flatMap.2 ⟨c, h, List.mem_cons_of_mem _ List.mem_cons_self⟩

namespace Run

/-- The run leaves the disk as it is and writes nothing to the output. -/
structure IsIdle (run : Run) : Prop where
  changes : run.changes = []
  output : run.output = []

/-- A request that the disk or its own words do not let happen. -/
inductive IsBarred (d : Disk) (r : Request) : Prop
  /-- The command takes no words and has some. -/
  | furtherWords (hcommand : r.command ≠ .input) (hwords : r.words ≠ [])
  /-- No file is named. -/
  | path (hpath : r.options.session? = none)
  /-- There is a session that is not resumed, or it cannot be looked for. -/
  | session {path : Text} {failure : Failure}
      (hcommand : r.command ≠ .clear)
      (hpath : r.options.session? = some path)
      (hresume : Session.resume d (.ofText path) = .error failure)
  /-- A word cannot be read. -/
  | word {path : Text} {s : Session} {f : Numeral.Fault}
      (hcommand : r.command = .input)
      (hpath : r.options.session? = some path)
      (hresume : Session.resume d (.ofText path) = .ok s)
      (hhalt : (s.evaluate r.words).halt? = some (.unreadable f))

/-! ### Mistakes -/

theorem isIdle_mistaken
    (m : Mistake) (picks : Picks) :
    (mistaken m picks).IsIdle :=
  ⟨rfl, rfl⟩

theorem ending_concluding_ne
    (output errors : Text) (changes : List Change) (complaints : List Complaint)
    (picks : Picks) :
    (concluding output errors changes complaints picks).ending ≠ .status 2 := by
  intro h
  have hcode := Ending.status.inj h
  split at hcode <;> cases hcode

theorem ending_failing_ne
    (output errors : Text) (changes : List Change) (complaints : List Complaint)
    (path : Path) (picks : Picks) (failure : Failure) :
    (failing output errors changes complaints path picks failure).ending ≠ .status 2 := by
  cases failure with
  | problem problem => exact ending_concluding_ne _ _ _ _ _
  | breakdown b => exact fun h => (by cases h)

theorem ending_clearing_ne
    (d : Disk) (path : Path) (verbose : Bool) (picks : Picks) :
    (clearing d path verbose picks).ending ≠ .status 2 := by
  rw [clearing]
  split
  · exact ending_concluding_ne _ _ _ _ _
  · exact ending_failing_ne _ _ _ _ _ _ _

theorem ending_working_ne
    (d : Disk) (path : Path) (verbose : Bool) (picks : Picks) (tag : Nat)
    (work : Session → Work) :
    (working d path verbose picks tag work).ending ≠ .status 2 := by
  rcases working_cases verbose picks tag work d path with
    ⟨b, output, errors, h⟩ | ⟨errors, problem, h⟩ | ⟨s, errors, complaints, -, h⟩
  · rw [h]
    exact fun hending => (by cases hending)
  · rw [h]
    exact ending_concluding_ne _ _ _ _ _
  · rw [h]
    exact ending_concluding_ne _ _ _ _ _

theorem exists_ofRequest_eq_mistaken
    {d : Disk} {picks : Picks} {tag : Nat} {r : Request}
    (h : (ofRequest d picks tag r).ending = .status 2) :
    ∃ m, ofRequest d picks tag r = mistaken m picks := by
  cases hpath : r.options.session? with
  | none =>
      rw [ofRequest, hpath] at h
      cases h
  | some path =>
      by_cases hwords : r.command = .input ∨ r.words = []
      · exfalso
        by_cases hcommand : r.command = .clear
        · have hnil : r.words = [] := hwords.resolve_left (by simp [hcommand])
          rw [ofRequest_eq_clearing d picks tag hpath hcommand hnil] at h
          exact ending_clearing_ne _ _ _ _ h
        · rw [ofRequest_eq_working d picks tag hpath hcommand hwords] at h
          exact ending_working_ne _ _ _ _ _ _ h
      · obtain ⟨hinput, hnonempty⟩ := not_or.1 hwords
        exact ⟨_, ofRequest_eq_mistaken d picks tag hpath hinput hnonempty⟩

/-- Only a mistake ends a run with status 2. -/
theorem exists_ofArguments_eq_mistaken
    {d : Disk} {picks : Picks} {tag : Nat} {arguments : List Text}
    (h : (ofArguments d picks tag arguments).ending = .status 2) :
    ∃ m, ofArguments d picks tag arguments = mistaken m picks := by
  generalize hrun : ofArguments d picks tag arguments = run at h ⊢
  rw [ofArguments] at hrun
  split at hrun
  · cases hrun
    cases h
  · split at hrun
    · exact ⟨_, hrun.symm⟩
    · cases hrun
      cases h
    · obtain rfl := hrun
      exact exists_ofRequest_eq_mistaken h

/-! ### Requests -/

/-- **A request that cannot be met leaves no trace.** -/
theorem IsBarred.isIdle
    {d : Disk} {r : Request}
    (h : IsBarred d r)
    (picks : Picks) (tag : Nat) :
    (ofRequest d picks tag r).IsIdle := by
  cases h with
  | furtherWords hcommand hwords =>
      cases hpath : r.options.session? with
      | none =>
          rw [ofRequest, hpath]
          exact ⟨rfl, rfl⟩
      | some path =>
          rw [ofRequest_eq_mistaken d picks tag hpath hcommand hwords]
          exact isIdle_mistaken _ picks
  | path hpath =>
      rw [ofRequest, hpath]
      exact ⟨rfl, rfl⟩
  | @session path failure hcommand hpath hresume =>
      by_cases hwords : r.command = .input ∨ r.words = []
      · rw [ofRequest_eq_working d picks tag hpath hcommand hwords]
        obtain ⟨hchanges, houtput⟩ :=
          working_of_failure r.options.verbose picks tag r.work hresume
        exact ⟨hchanges, houtput⟩
      · -- The words are a mistake before the session is looked for.
        obtain ⟨hinput, hwords⟩ := not_or.1 hwords
        rw [ofRequest_eq_mistaken d picks tag hpath hinput hwords]
        exact isIdle_mistaken _ picks
  | @word path s f hcommand hpath hresume hhalt =>
      obtain ⟨options, command, words⟩ := r
      obtain rfl : command = .input := hcommand
      rw [ofRequest_input_eq_working d picks tag hpath]
      have hwork := Work.evaluating_of_unreadable options.quiet hhalt
      obtain ⟨errors, hworking⟩ := working_of_broken options.verbose picks tag
        (fun s => Work.evaluating s options.quiet words) hresume (congrArg Work.breakdown? hwork)
      rw [hworking, hwork, (Session.isValid_of_resume hresume).1.evaluate_of_unreadable hhalt]
      refine ⟨rfl, ?_⟩
      cases options.quiet <;> rfl

/-- The run ends with status 1 and tells of a problem with the session: the error output names the
path of its file, and says on the next line what the problem is. -/
structure Reports (run : Run) (p : Path) (problem : Problem) : Prop where
  ending : run.ending = .status 1
  told : "Something went pear-shaped with the session file ".toList ++ p.toText ++
    '\n' :: problem.message <:+: run.errors

/-- A run that comes to its conclusion reports each problem of which it complains. -/
theorem reports_concluding
    (output errors : Text) (changes : List Change) {p : Path} {problem : Problem}
    {complaints : List Complaint}
    (h : Complaint.ofProblem p problem.message ∈ complaints)
    (picks : Picks) :
    (concluding output errors changes complaints picks).Reports p problem where
  ending := by
    have hnonempty : complaints.isEmpty = false :=
      List.isEmpty_eq_false_iff_exists_mem.2 ⟨_, h⟩
    rw [concluding, hnonempty]
    rfl
  told := by
    rw [← Complaint.toText_ofProblem]
    exact (Complaint.infix_console h picks).trans (List.suffix_append _ _).isInfix

theorem reports_of_problem
    {d : Disk} {r : Request} {path : Text} {kept : Bool} {problem : Problem}
    (picks : Picks) (tag : Nat)
    (hpath : r.options.session? = some path)
    (hcommand : r.command ≠ .clear)
    (hwords : r.command = .input ∨ r.words = [])
    (hkept : Session.isKept d (.ofText path) = .ok kept)
    (hresume : Session.resume d (.ofText path) = .error (.problem problem)) :
    (ofRequest d picks tag r).Reports (.ofText path) problem := by
  obtain ⟨errors, hconcluding⟩ :=
    working_of_problem r.options.verbose picks tag r.work hkept hresume
  rw [ofRequest_eq_working d picks tag hpath hcommand hwords, hconcluding]
  exact reports_concluding [] errors [] List.mem_cons_self picks

/-- What stops at a word is kept as it stands then. -/
theorem ofRequest_of_stopped
    {d : Disk} {options : Options} {path : Text} {s : Session} {words : List Text}
    {word : Text} {spot : Nat} {cause : Cause}
    (picks : Picks) (tag : Nat)
    (hpath : options.session? = some path)
    (hresume : Session.resume d (.ofText path) = .ok s)
    (hhalt : (s.evaluate words).halt? = some (.stopped word spot cause)) :
    let run := ofRequest d picks tag ⟨options, .input, words⟩
    run.ending = .status 1 ∧
      run.changes = ((s.evaluate words).session.keep d (.ofText path) tag).1 := by
  obtain ⟨complaint, hwork⟩ := Work.evaluating_of_stopped options.quiet hhalt
  obtain ⟨errors, hconcluding⟩ := working_of_kept options.verbose picks tag
    (fun s => Work.evaluating s options.quiet words) hresume (congrArg Work.breakdown? hwork)
  rw [ofRequest_input_eq_working d picks tag hpath, hconcluding, hwork]
  exact ⟨rfl, rfl⟩

/-- **What cannot be used is left alone**, whatever the arguments and the disk are.  The part on a
problem leaves out a disk that does not even say whether there is a session: such a run is broken
off before it comes to the session. -/
theorem ofArguments_spares
    (d : Disk) (picks : Picks) (tag : Nat) (arguments : List Text) :
    let run := ofArguments d picks tag arguments
    (run.ending = .status 2 → run.IsIdle) ∧
      ∀ r, Demand.ofTexts arguments = .ok (.request r) →
        (IsBarred d r → run.IsIdle) ∧
          ∀ path, r.options.session? = some path →
            (r.command ≠ .input → r.words ≠ [] → run.ending = .status 2) ∧
              (∀ kept problem, r.command ≠ .clear → r.command = .input ∨ r.words = [] →
                Session.isKept d (.ofText path) = .ok kept →
                Session.resume d (.ofText path) = .error (.problem problem) →
                run.Reports (.ofText path) problem) ∧
              ∀ s word spot cause, r.command = .input →
                Session.resume d (.ofText path) = .ok s →
                (s.evaluate r.words).halt? = some (.stopped word spot cause) →
                let keeping := (s.evaluate r.words).session.keep d (.ofText path) tag
                run.ending = .status 1 ∧ run.changes = keeping.1 ∧
                  (keeping.2 = none → Path.up ∉ d.here →
                    (d.applyAll run.changes).read (.ofText path) =
                      .ok (s.evaluate r.words).session.toBytes) := by
  intro run
  refine ⟨?_, ?_⟩
  · intro hending
    obtain ⟨m, hm⟩ := exists_ofArguments_eq_mistaken hending
    rw [show run = mistaken m picks from hm]
    exact isIdle_mistaken m picks
  · intro r hr
    have hrun : run = ofRequest d picks tag r := ofArguments_of_request d picks tag hr
    rw [hrun]
    refine ⟨fun h => h.isIdle picks tag, fun path hpath => ⟨?_, ?_, ?_⟩⟩
    · intro hcommand hwords
      rw [ofRequest_eq_mistaken d picks tag hpath hcommand hwords]
      rfl
    · intro kept problem hcommand hwords hkept hresume
      exact reports_of_problem picks tag hpath hcommand hwords hkept hresume
    · intro s word spot cause hcommand hresume hhalt keeping
      obtain ⟨options, command, words⟩ := r
      obtain rfl : command = .input := hcommand
      obtain ⟨hending, hchanges⟩ := ofRequest_of_stopped picks tag hpath hresume hhalt
      refine ⟨hending, hchanges, fun hkeeping hhere => ?_⟩
      rw [hchanges]
      exact Session.read_of_keep hhere hkeeping

/-- A file that holds an array is left as it is, with the problem told, and so is one that holds a
thousand opening brackets; a word of an unknown kind leaves a file with what was done before it. -/
theorem ofArguments_spares_array :
    let path := "session.json".toList
    let d : Disk := ⟨[([path], .file (Text.Utf8.encode "[]".toList))], []⟩
    let refused := ofArguments d ⟨[], 0⟩ 0 ["print".toList]
    let complaint :=
      "Something went pear-shaped with the session file session.json\nexpected a JSON object".toList
    let nested : Disk := ⟨[([path], .file (Text.Utf8.encode (List.replicate 1000 '[')))], []⟩
    let empty : Disk := ⟨[], []⟩
    let stopped := ofArguments empty ⟨[], 0⟩ 0 ["input".toList, "3".toList, "x".toList]
    (refused.IsIdle ∧ refused.Reports (.ofText path) (.flaw .notObject) ∧
        complaint <:+: refused.errors) ∧
      (ofArguments nested ⟨[], 0⟩ 0 ["print".toList]).IsIdle ∧
      stopped.ending = .status 1 ∧
      (empty.applyAll stopped.changes).read (.ofText path) =
        .ok (Text.Utf8.encode "\x7b\"stack\": [\"3\"], \"variables\": []\x7d".toList) := by
  intro path d refused complaint nested empty stopped
  have hdemand : Demand.ofTexts ["print".toList] = .ok (.request ⟨.standard, .print, []⟩) := by
    decide +kernel
  refine ⟨?_, ?_, ?_⟩
  · have hread : d.read (.ofText path) = .ok (Text.Utf8.encode "[]".toList) := by
      decide +kernel
    have hkept : Session.isKept d (.ofText path) = .ok true := by
      decide +kernel
    have hresume : Session.resume d (.ofText path) = .error (.problem (.flaw .notObject)) := by
      rw [Session.resume_of_read hread, Session.ofBytes, Text.Utf8.decode_eq_ok_iff.2 rfl]
      rfl
    obtain ⟨hidle, hpath⟩ := (ofArguments_spares d ⟨[], 0⟩ 0 _).2 _ hdemand
    obtain ⟨-, hreports, -⟩ := hpath path rfl
    have hreported := hreports true _ (by decide) (Or.inr rfl) hkept hresume
    have htold : "Something went pear-shaped with the session file ".toList ++
        (Path.ofText path).toText ++ '\n' :: (Problem.flaw .notObject).message = complaint := by
      decide +kernel
    exact ⟨hidle (.session (by decide) rfl hresume), hreported, htold ▸ hreported.told⟩
  · have hcount : 1000 = Json.nestingLimit + 1 + 7 := rfl
    have hread : nested.read (.ofText path) = .ok (Text.Utf8.encode
        (List.replicate (Json.nestingLimit + 1) '[' ++ List.replicate 7 '[')) := by
      rw [List.replicate_append_replicate, ← hcount]
      rfl
    exact ((ofArguments_spares nested ⟨[], 0⟩ 0 _).2 _ hdemand).1
      (.session (by decide) rfl (Session.resume_of_brackets _ hread))
  · have hdemand : Demand.ofTexts ["input".toList, "3".toList, "x".toList] =
        .ok (.request ⟨.standard, .input, ["3".toList, "x".toList]⟩) := by
      decide +kernel
    have hhalt : (Session.fresh.evaluate ["3".toList, "x".toList]).halt? =
        some (.stopped "x".toList 1 .unsupported) := by
      decide +kernel
    have hbytes : (Session.fresh.evaluate ["3".toList, "x".toList]).session.toBytes =
        Text.Utf8.encode "\x7b\"stack\": [\"3\"], \"variables\": []\x7d".toList := by
      decide +kernel
    obtain ⟨-, hpath⟩ := (ofArguments_spares empty ⟨[], 0⟩ 0 _).2 _ hdemand
    obtain ⟨-, -, hstopped⟩ := hpath path rfl
    obtain ⟨hending, -, hread⟩ := hstopped .fresh _ _ _ rfl rfl hhalt
    exact ⟨hending, hbytes ▸ hread rfl List.not_mem_nil⟩

end Run

end ReversePolish
