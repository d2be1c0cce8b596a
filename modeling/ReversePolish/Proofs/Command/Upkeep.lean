import ReversePolish.Proofs.Command.Working
import ReversePolish.Proofs.Disk.Saving
import ReversePolish.Proofs.Session.Resuming

/-!
# Files that the program leaves behind

Whatever the arguments of a run are, it changes the disk in one of three ways:
not at all, by removing a file, or by saving a session that is valid and
orderly.  So a file that is on the disk afterwards was there before, or it
holds such a session; and this carries over to any number of runs.

In a folder that is free of files at first, all files are therefore files that
the program will accept.
-/

namespace ReversePolish

/-- What decides a run besides the disk. -/
structure Invocation where
  arguments : List Text
  picks : Picks
  /-- The number of the tag for the temporary file. -/
  tag : Nat

/-- The disk after a run. -/
def Disk.after (d : Disk) (i : Invocation) : Disk :=
  d.applyAll (Run.ofArguments d i.picks i.tag i.arguments).changes

/-- The disk after runs, one after the other. -/
def Disk.afterAll (d : Disk) (invocations : List Invocation) : Disk :=
  invocations.foldl Disk.after d

/-- The bytes hold a session that evaluating can make. -/
def IsSessionFile (bytes : List UInt8) : Prop :=
  ∃ s : Session, s.IsValid ∧ s.bindings.IsOrderly ∧ bytes = s.toBytes

theorem IsSessionFile.ofBytes
    {bytes : List UInt8}
    (h : IsSessionFile bytes) :
    ∃ s, Session.ofBytes bytes = .ok s ∧ s.IsValid := by
  obtain ⟨s, hvalid, horderly, rfl⟩ := h
  exact ⟨s, Session.ofBytes_toBytes hvalid horderly, hvalid⟩

namespace Run

/-- The ways in which a run changes the disk. -/
inductive Upkeep (d : Disk) (tag : Nat) : List Change → Prop where
  | nothing : Upkeep d tag []
  | removal (p : Path) : Upkeep d tag (d.removing p).made
  | save (p : Path) {bytes : List UInt8} (h : IsSessionFile bytes) :
      Upkeep d tag (d.saving p tag bytes).made

theorem changes_forget
    (d : Disk) (path : Path) :
    (Session.forget d path).1 = (d.removing path).made := by
  rw [Session.forget]
  split <;> rfl

theorem upkeep_clearing
    (d : Disk) (path : Path) (verbose : Bool) (picks : Picks) (tag : Nat) :
    Upkeep d tag (clearing d path verbose picks).changes := by
  have hchanges : (clearing d path verbose picks).changes = (d.removing path).made := by
    rw [clearing, ← changes_forget]
    split
    · rename_i changes hforget
      rw [hforget]
      rfl
    · rename_i changes failure hforget
      rw [hforget, changes_failing]
  rw [hchanges]
  exact .removal path

theorem upkeep_working
    {d : Disk} (path : Path) (verbose : Bool) (picks : Picks) (tag : Nat)
    {work : Session → Work}
    (hwork : ∀ s, s.IsValid → s.bindings.IsOrderly →
      (work s).session.IsValid ∧ (work s).session.bindings.IsOrderly) :
    Upkeep d tag (working d path verbose picks tag work).changes := by
  rcases working_cases verbose picks tag work d path with
    ⟨b, output, errors, h⟩ | ⟨errors, problem, h⟩ | ⟨s, errors, complaints, hresume, h⟩
  · rw [h]
    exact .nothing
  · rw [h]
    exact .nothing
  · obtain ⟨hvalid, horderly⟩ := Session.isValid_of_resume hresume
    obtain ⟨hvalid, horderly⟩ := hwork s hvalid horderly
    rw [h]
    exact .save path ⟨(work s).session, hvalid, horderly, rfl⟩

theorem upkeep_ofRequest
    (d : Disk) (picks : Picks) (tag : Nat) (r : Request) :
    Upkeep d tag (ofRequest d picks tag r).changes := by
  rw [ofRequest]
  split
  · exact .nothing
  · rename_i text hsession
    split
    · exact .nothing
    · split
      · exact upkeep_clearing d _ _ picks tag
      · refine upkeep_working _ _ picks tag fun s hvalid horderly => ?_
        have hsession : (Work.evaluating s r.options.quiet r.words).session =
            (s.evaluate r.words).session := by
          rw [Work.evaluating]
          split <;> rfl
        rw [hsession]
        exact ⟨hvalid.evaluate r.words, Session.isOrderly_evaluate horderly r.words⟩
      · exact upkeep_working _ _ picks tag fun s hvalid horderly => ⟨hvalid, horderly⟩
      · exact upkeep_working _ _ picks tag fun s hvalid horderly => ⟨hvalid, horderly⟩

/-- Whatever the arguments are, the disk changes in one of these ways. -/
theorem upkeep_ofArguments
    (d : Disk) (picks : Picks) (tag : Nat) (arguments : List Text) :
    Upkeep d tag (ofArguments d picks tag arguments).changes := by
  rw [ofArguments]
  split
  · exact .nothing
  · split
    · exact .nothing
    · exact .nothing
    · exact upkeep_ofRequest d picks tag _

end Run

namespace Disk

theorem file_of_upkeep
    {d : Disk} {tag : Nat} {changes : List Change} {place : Location} {bytes : List UInt8}
    (hupkeep : Run.Upkeep d tag changes)
    (h : (d.applyAll changes).entryAt? place = some (.file bytes)) :
    d.entryAt? place = some (.file bytes) ∨ IsSessionFile bytes := by
  cases hupkeep with
  | nothing => exact Or.inl h
  | removal p => exact Or.inl (file_of_removing h)
  | save p hsession =>
      rcases file_of_saving h with hbefore | rfl
      · exact Or.inl hbefore
      · exact Or.inr hsession

/-- A file on the disk after a run was there before or holds a session. -/
theorem file_of_after
    {d : Disk} {i : Invocation} {place : Location} {bytes : List UInt8}
    (h : (d.after i).entryAt? place = some (.file bytes)) :
    d.entryAt? place = some (.file bytes) ∨ IsSessionFile bytes :=
  file_of_upkeep (Run.upkeep_ofArguments d i.picks i.tag i.arguments) h

theorem file_of_afterAll
    {d : Disk} {invocations : List Invocation} {place : Location} {bytes : List UInt8}
    (h : (d.afterAll invocations).entryAt? place = some (.file bytes)) :
    d.entryAt? place = some (.file bytes) ∨ IsSessionFile bytes := by
  induction invocations generalizing d with
  | nil => exact Or.inl h
  | cons i rest ih =>
      rcases ih h with hbefore | hbytes
      · exact file_of_after hbefore
      · exact Or.inr hbytes

/-- **In a folder without files at first, every file that runs leave there is resumed.** -/
theorem resume_of_file_afterAll
    {d : Disk} {folder : Location}
    (hfree : ∀ place bytes, folder <+: place → d.entryAt? place ≠ some (.file bytes))
    (invocations : List Invocation)
    {place : Location} {bytes : List UInt8}
    (hplace : folder <+: place)
    (hfile : (d.afterAll invocations).entryAt? place = some (.file bytes)) :
    ∃ s, Session.ofBytes bytes = .ok s ∧ s.IsValid ∧
      ∀ p, (d.afterAll invocations).reach p = .ok place →
        Session.resume (d.afterAll invocations) p = .ok s := by
  have hbytes : IsSessionFile bytes :=
    (file_of_afterAll hfile).resolve_left (hfree place bytes hplace)
  obtain ⟨s, hs, hvalid⟩ := hbytes.ofBytes
  refine ⟨s, hs, hvalid, ?_⟩
  intro p hreach
  rw [Session.resume, read_of_reach hreach hfile]
  exact hs

/-- Two runs, the second of which stops at its last word, and the session that they leave. -/
theorem resume_of_file_afterAll_sum :
    let d : Disk := ⟨[], []⟩
    let place : Location := ["session.json".toList]
    let invocations : List Invocation :=
      [⟨["input".toList, "A".toList, "-7".toList, "=".toList], ⟨[], 0⟩, 0⟩,
        ⟨["-q".toList, "input".toList, "A".toList, "5".toList, "+".toList, "/".toList], ⟨[], 0⟩, 1⟩]
    let bytes := Text.Utf8.encode
      "\x7b\"stack\": [\"-2\"], \"variables\": [[\"A\", \"-7\"]]\x7d".toList
    (d.afterAll invocations).entryAt? place = some (.file bytes) ∧
      ∃ s, Session.ofBytes bytes = .ok s ∧ s.IsValid := by
  intro d place invocations bytes
  have hfree : ∀ place bytes, [] <+: place → d.entryAt? place ≠ some (.file bytes) := by
    intro place bytes _ h
    cases place <;> cases h
  have hfile : (d.afterAll invocations).entryAt? place = some (.file bytes) := by
    decide +kernel
  obtain ⟨s, hs, hvalid, -⟩ :=
    resume_of_file_afterAll hfree invocations List.nil_prefix hfile
  exact ⟨hfile, s, hs, hvalid⟩

end Disk

end ReversePolish
