import ReversePolish.Disk.Change
import ReversePolish.Proofs.Association
import ReversePolish.Proofs.Outcome

/-!
# What saving leaves behind

Saving a file goes through a temporary one, but nothing of that remains: a
save that fails leaves the disk as it was, and one that succeeds puts the
content where the path leads and changes nothing else.

For this the location of the temporary file has to be where it seems to be,
which it is as long as the current folder is given by names alone.  Without
that, still every file was there before or holds the content that was saved.
-/

namespace ReversePolish

/-- A path that ends in a name is its parent with this name behind it. -/
theorem Path.parts_eq_append
    {p : Path}
    (h : p.endsInName = true) :
    p.parts = p.parent.parts ++ [p.name] ∧ p.name ≠ up := by
  rw [endsInName] at h
  split at h
  · cases h
  · rename_i part hlast
    obtain ⟨front, hparts⟩ := List.getLast?_eq_some_iff.1 hlast
    rw [parent, name, hparts, List.dropLast_concat, List.getLast?_concat]
    exact ⟨rfl, of_decide_eq_true h⟩

namespace Disk

/-! ### Single changes -/

theorem put_put
    (d : Disk) (place : Location) (first second : Entry) :
    (d.put place first).put place second = d.put place second := by
  simp only [put, Association.put_put]

theorem entryAt?_erase_self
    (d : Disk) {place : Location}
    (h : place ≠ []) :
    (d.erase place).entryAt? place = none := by
  simp [entryAt?, erase, h]

/-- An entry that is new leaves no trace when it is taken away. -/
theorem erase_put
    {d : Disk} {place : Location} (entry : Entry)
    (h : d.entryAt? place = none) :
    (d.put place entry).erase place = d := by
  have hfind : Association.find? place d.entries = none := by
    rw [entryAt?] at h
    split at h
    · cases h
    · exact h
  simp only [put, erase, Association.erase_put_of_find?_eq_none entry d.entries hfind]

theorem apply_rename_put
    (d : Disk) {source : Location} (target : Location) (entry : Entry)
    (h : source ≠ []) :
    (d.put source entry).apply (.rename source target) =
      ((d.put source entry).erase source).put target entry := by
  rw [apply, entryAt?_put_self d entry h]

/-- A file that is there after something was put was there before or was put. -/
theorem file_of_put
    {d : Disk} {place other : Location} {content bytes : List UInt8}
    (h : (d.put place (.file content)).entryAt? other = some (.file bytes)) :
    d.entryAt? other = some (.file bytes) ∨ (other = place ∧ bytes = content) := by
  by_cases hother : other = place
  · subst hother
    by_cases hroot : other = []
    · subst hroot
      cases h
    · rw [entryAt?_put_self d _ hroot] at h
      cases h
      exact Or.inr ⟨rfl, rfl⟩
  · rw [entryAt?_put_of_ne d _ hother] at h
    exact Or.inl h

/-- A file that is there after something was taken away was there before, elsewhere. -/
theorem file_of_erase
    {d : Disk} {place other : Location} {bytes : List UInt8}
    (h : (d.erase place).entryAt? other = some (.file bytes)) :
    other ≠ place ∧ d.entryAt? other = some (.file bytes) := by
  have hother : other ≠ place := by
    rintro rfl
    by_cases hroot : other = []
    · subst hroot
      cases h
    · rw [entryAt?_erase_self d hroot] at h
      cases h
  rw [entryAt?_erase_of_ne d hother] at h
  exact ⟨hother, h⟩

/-! ### Files afterwards -/

theorem temporary_ne_nil
    (d : Disk) (p : Path) (n : Nat) :
    d.temporary p n ≠ [] := by
  simp [temporary]

/-- Every file on the disk after saving was there before or holds what was saved. -/
theorem file_of_saving
    {d : Disk} {p : Path} {n : Nat} {content bytes : List UInt8} {place : Location}
    (h : (d.applyAll (d.saving p n content).made).entryAt? place = some (.file bytes)) :
    d.entryAt? place = some (.file bytes) ∨ bytes = content := by
  -- The temporary file, empty or complete, stands at one location only.
  have htemporary :
      (((d.put (d.temporary p n) (.file [])).put (d.temporary p n) (.file content)).erase
          (d.temporary p n)).entryAt? place = some (.file bytes) →
        d.entryAt? place = some (.file bytes) := by
    intro hfile
    obtain ⟨hplace, hfile⟩ := file_of_erase hfile
    rw [put_put] at hfile
    exact (file_of_put hfile).resolve_right fun heq => hplace heq.1
  rw [saving] at h
  split at h
  · exact Or.inl h
  · split at h
    · exact Or.inl (htemporary h)
    · simp only [applyAll_cons, applyAll_nil] at h
      rw [apply, apply, apply_rename_put _ _ _ (temporary_ne_nil d p n)] at h
      rcases file_of_put h with hfile | ⟨-, hbytes⟩
      · exact Or.inl (htemporary hfile)
      · exact Or.inr hbytes

theorem file_of_removing
    {d : Disk} {p : Path} {bytes : List UInt8} {place : Location}
    (h : (d.applyAll (d.removing p).made).entryAt? place = some (.file bytes)) :
    d.entryAt? place = some (.file bytes) := by
  rw [removing] at h
  split at h
  · exact h
  · exact (file_of_erase h).2

/-! ### Ways -/

/-- A way that can be followed stays one as long as the folders are still there. -/
theorem follow_of_folders
    {d d' : Disk} {place reached : Location} {parts : List Text}
    (hfolders : ∀ other, d.entryAt? other = some .folder → d'.entryAt? other = some .folder)
    (h : d.follow place parts = .ok reached) :
    d'.follow place parts = .ok reached := by
  induction parts generalizing place with
  | nil => exact h
  | cons part rest ih =>
      rw [follow] at h ⊢
      split at h
      · cases h
      · cases h
      · rename_i hplace
        rw [hfolders place hplace]
        split at h
        · cases h
        · rename_i hsize
          simp only [if_neg hsize]
          exact ih h

theorem walk_of_folders
    {d d' : Disk} {p : Path} {reached : Location}
    (hhere : d'.here = d.here)
    (hfolders : ∀ other, d.entryAt? other = some .folder → d'.entryAt? other = some .folder)
    (h : d.walk p = .ok reached) :
    d'.walk p = .ok reached := by
  have hstart : d'.start p = d.start p := by
    rw [start, start, hhere]
  rw [walk] at h ⊢
  split at h
  · cases h
  · rename_i hsize
    rw [if_neg hsize, hstart]
    exact follow_of_folders hfolders h

theorem eq_locate_of_walk
    {d : Disk} {p : Path} {reached : Location}
    (h : d.walk p = .ok reached) :
    reached = d.locate p := by
  rw [walk] at h
  split at h
  · cases h
  · exact follow_eq_ok h

theorem reach_of_holdsNul
    (d : Disk) {p : Path}
    (h : p.HoldsNul) :
    d.reach p = .error .nulInPath :=
  if_pos h

theorem reach_of_not_holdsNul
    (d : Disk) {p : Path}
    (h : ¬ p.HoldsNul) :
    d.reach p = d.walk p :=
  if_neg h

/-- Only a path without a NUL is looked at. -/
theorem reach_eq_ok_iff
    {d : Disk} {p : Path} {reached : Location} :
    d.reach p = .ok reached ↔ ¬ p.HoldsNul ∧ d.walk p = .ok reached := by
  by_cases hnul : p.HoldsNul
  · simp [reach_of_holdsNul d hnul, hnul]
  · simp [reach_of_not_holdsNul d hnul, hnul]

theorem reach_of_folders
    {d d' : Disk} {p : Path} {reached : Location}
    (hhere : d'.here = d.here)
    (hfolders : ∀ other, d.entryAt? other = some .folder → d'.entryAt? other = some .folder)
    (h : d.reach p = .ok reached) :
    d'.reach p = .ok reached := by
  obtain ⟨hnul, hwalk⟩ := reach_eq_ok_iff.1 h
  exact reach_eq_ok_iff.2 ⟨hnul, walk_of_folders hhere hfolders hwalk⟩

theorem eq_locate_of_reach
    {d : Disk} {p : Path} {reached : Location}
    (h : d.reach p = .ok reached) :
    reached = d.locate p :=
  eq_locate_of_walk (reach_eq_ok_iff.1 h).2

theorem find_eq_ok_iff
    {d : Disk} {p : Path} {entry : Entry} :
    d.find p = .ok entry ↔ ∃ place, d.reach p = .ok place ∧ d.entryAt? place = some entry := by
  rw [find, Outcome.bind_eq_ok]
  refine exists_congr fun place => and_congr_right fun _ => ?_
  constructor
  · intro h
    split at h
    · cases h
    · rename_i other hother
      cases h
      exact hother
  · intro h
    rw [h]
    rfl

theorem read_eq_ok_iff
    {d : Disk} {p : Path} {bytes : List UInt8} :
    d.read p = .ok bytes ↔
      ∃ place, d.reach p = .ok place ∧ d.entryAt? place = some (.file bytes) := by
  rw [read, Outcome.bind_eq_ok]
  constructor
  · rintro ⟨entry, hfind, h⟩
    obtain ⟨place, hreach, hentry⟩ := find_eq_ok_iff.1 hfind
    refine ⟨place, hreach, ?_⟩
    cases entry with
    | folder => cases h
    | file content =>
        cases h
        exact hentry
  · rintro ⟨place, hreach, hentry⟩
    exact ⟨.file bytes, find_eq_ok_iff.2 ⟨place, hreach, hentry⟩, rfl⟩

theorem read_of_reach
    {d : Disk} {p : Path} {place : Location} {bytes : List UInt8}
    (hreach : d.reach p = .ok place)
    (h : d.entryAt? place = some (.file bytes)) :
    d.read p = .ok bytes :=
  read_eq_ok_iff.2 ⟨place, hreach, h⟩

theorem foldl_next_of_up_notMem
    {place : Location} {parts : List Text}
    (h : Path.up ∉ parts) :
    parts.foldl next place = place ++ parts := by
  induction parts generalizing place with
  | nil => rw [List.foldl_nil, List.append_nil]
  | cons part rest ih =>
      rw [List.mem_cons, not_or] at h
      obtain ⟨hpart, hrest⟩ := h
      rw [List.foldl_cons, next, if_neg (Ne.symm hpart), ih hrest, List.append_assoc]
      rfl

theorem up_notMem_foldl_next
    {place : Location} (parts : List Text)
    (h : Path.up ∉ place) :
    Path.up ∉ parts.foldl next place := by
  induction parts generalizing place with
  | nil => exact h
  | cons part rest ih =>
      refine ih ?_
      rw [next]
      split
      · exact fun hmem => h ((List.dropLast_sublist place).subset hmem)
      · rename_i hpart
        rw [List.mem_append, List.mem_singleton, not_or]
        exact ⟨h, Ne.symm hpart⟩

theorem mem_of_mem_foldl_next
    {place : Location} {part : Text} (parts : List Text)
    (h : part ∈ parts.foldl next place) :
    part ∈ place ∨ part ∈ parts := by
  induction parts generalizing place with
  | nil => exact Or.inl h
  | cons first rest ih =>
      rw [List.foldl_cons] at h
      rcases ih h with hplace | hrest
      · rw [next] at hplace
        split at hplace
        · exact Or.inl ((List.dropLast_sublist place).subset hplace)
        · rcases List.mem_append.1 hplace with hplace | hfirst
          · exact Or.inl hplace
          · rw [List.mem_singleton.1 hfirst]
            exact Or.inr List.mem_cons_self
      · exact Or.inr (List.mem_cons_of_mem _ hrest)

/-- Working out the folder of a path brings no NUL into it. -/
theorem holdsNul_of_workedOut
    {p : Path}
    (h : (workedOut p).HoldsNul) :
    p.HoldsNul := by
  obtain ⟨part, hpart, hnul⟩ := h
  refine ⟨part, ?_, hnul⟩
  rcases List.mem_append.1 hpart with hfolder | hname
  · exact (List.dropLast_sublist p.parts).subset
      ((mem_of_mem_foldl_next _ hfolder).resolve_left List.not_mem_nil)
  · rw [List.mem_singleton.1 hname, Path.name] at hnul ⊢
    cases hlast : p.parts.getLast? with
    | none =>
        rw [hlast] at hnul
        cases hnul
    | some last => exact List.mem_of_getLast? hlast

/-- What a path that ends in a name leads to lies where its parent leads. -/
theorem locate_eq_append
    (d : Disk) {p : Path}
    (h : p.endsInName = true) :
    d.locate p = d.locate p.parent ++ [p.name] := by
  obtain ⟨hparts, hname⟩ := Path.parts_eq_append h
  rw [locate, hparts, List.foldl_append, List.foldl_cons, List.foldl_nil, next, if_neg hname]
  rfl

theorem locate_ne_nil
    (d : Disk) {p : Path}
    (h : p.endsInName = true) :
    d.locate p ≠ [] := by
  rw [locate_eq_append d h]
  exact List.append_ne_nil_of_right_ne_nil _ (List.cons_ne_nil _ _)

/-! ### The temporary file -/

theorem locate_ne_temporary
    (d : Disk) {p : Path} (n : Nat)
    (h : p.endsInName = true) :
    d.locate p ≠ d.temporary p n := by
  rw [locate_eq_append d h, temporary]
  intro heq
  have hname : p.name = p.name ++ temporaryEnding n :=
    List.singleton_inj.1 (List.append_cancel_left heq)
  have hending : temporaryEnding n = [] := List.append_right_eq_self.1 hname.symm
  rw [temporaryEnding] at hending
  cases hending

theorem up_notMem_temporary
    {d : Disk} (p : Path) (n : Nat)
    (h : Path.up ∉ d.here) :
    Path.up ∉ d.temporary p n := by
  have hstart : Path.up ∉ d.start p.parent := by
    rw [start]
    split
    · exact h
    · exact List.not_mem_nil
    · exact List.not_mem_nil
  rw [temporary, List.mem_append, List.mem_singleton, not_or]
  refine ⟨up_notMem_foldl_next p.parent.parts hstart, fun heq => ?_⟩
  -- The ending alone is longer than the name of the folder above.
  have hlength := congrArg List.length heq
  simp only [Path.up, temporaryEnding, List.length_append, List.length_cons, length_tag,
    tagLength, List.length_nil] at hlength
  omega

theorem start_temporaryPath
    (d : Disk) (p : Path) (n : Nat) :
    d.start (d.temporaryPath p n) = [] := by
  by_cases h : p.anchor = .doubleRoot <;> simp [start, temporaryPath, h]

theorem locate_temporaryPath
    {d : Disk} (p : Path) (n : Nat)
    (h : Path.up ∉ d.here) :
    d.locate (d.temporaryPath p n) = d.temporary p n := by
  rw [locate, start_temporaryPath]
  exact foldl_next_of_up_notMem (up_notMem_temporary p n h)

theorem creatable_eq_ok_iff
    {d : Disk} {p : Path} {n : Nat}
    (hhere : Path.up ∉ d.here) :
    d.creatable p n = .ok () ↔
      ¬ (workedOut p).HoldsNul ∧
        d.walk (d.temporaryPath p n) = .ok (d.temporary p n) ∧
        d.entryAt? (d.temporary p n) = none := by
  rw [creatable]
  by_cases hnul : (workedOut p).HoldsNul
  · simp only [hnul, if_true, not_true_eq_false, false_and, iff_false]
    intro h
    cases h
  · simp only [hnul, if_false, not_false_eq_true, true_and]
    rw [Outcome.bind_eq_ok]
    constructor
    · rintro ⟨reached, hwalk, hentry⟩
      obtain rfl : reached = d.temporary p n :=
        (eq_locate_of_walk hwalk).trans (locate_temporaryPath p n hhere)
      refine ⟨hwalk, ?_⟩
      split at hentry
      · cases hentry
      · rename_i hnone
        exact hnone
    · rintro ⟨hwalk, hnone⟩
      refine ⟨_, hwalk, ?_⟩
      rw [hnone]
      rfl

theorem replaceable_eq_ok_iff
    {d : Disk} {p : Path} {target : Location} :
    d.replaceable p = .ok target ↔
      d.reach p = .ok target ∧ p.endsInName = true ∧ d.entryAt? target ≠ some .folder := by
  rw [replaceable, Outcome.bind_eq_ok]
  constructor
  · rintro ⟨reached, hreach, h⟩
    split at h
    · rename_i hname
      split at h
      · cases h
      · rename_i hfolder
        cases h
        exact ⟨hreach, hname, hfolder⟩
    · cases h
  · rintro ⟨hreach, hname, hfolder⟩
    refine ⟨target, hreach, ?_⟩
    rw [if_pos hname]
    split
    · rename_i hentry
      exact absurd hentry hfolder
    · rfl

/-! ### Saving that succeeds -/

/-- The disk takes a file under a path by way of a temporary one. -/
structure IsReady (d : Disk) (p : Path) (n : Nat) : Prop where
  reach : d.reach p = .ok (d.locate p)
  endsInName : p.endsInName = true
  notFolder : d.entryAt? (d.locate p) ≠ some .folder
  walkTemporary : d.walk (d.temporaryPath p n) = .ok (d.temporary p n)
  noTemporary : d.entryAt? (d.temporary p n) = none

/-- Putting a file where there is no folder leaves all folders. -/
theorem folder_put_of_folder
    {d : Disk} {place other : Location} (entry : Entry)
    (hplace : d.entryAt? place ≠ some .folder)
    (h : d.entryAt? other = some .folder) :
    (d.put place entry).entryAt? other = some .folder := by
  have hother : other ≠ place := by
    rintro rfl
    exact hplace h
  rw [entryAt?_put_of_ne d entry hother, h]

/-- A file that is put somewhere leaves what a path leads to as it is, or takes its place. -/
theorem read_put_cases
    {d : Disk} {p : Path} {place : Location} {bytes : List UInt8}
    (hplace : d.entryAt? place ≠ some .folder)
    (hread : d.read p = .ok bytes)
    (content : List UInt8) :
    (d.put place (.file content)).read p = .ok bytes ∨
      (d.entryAt? place = some (.file bytes) ∧
        (d.put place (.file content)).read p = .ok content) := by
  obtain ⟨reached, hreach, hentry⟩ := read_eq_ok_iff.1 hread
  have hreachPut : (d.put place (.file content)).reach p = .ok reached :=
    reach_of_folders (d := d) rfl (fun _ => folder_put_of_folder _ hplace) hreach
  by_cases hreached : reached = place
  · subst hreached
    have hroot : reached ≠ [] := by
      rintro rfl
      exact hplace rfl
    exact Or.inr ⟨hentry, read_of_reach hreachPut (entryAt?_put_self d _ hroot)⟩
  · left
    refine read_of_reach hreachPut ?_
    rw [entryAt?_put_of_ne d _ hreached, hentry]

theorem folder_of_put_file
    {d : Disk} {place other : Location} {content : List UInt8}
    (h : (d.put place (.file content)).entryAt? other = some .folder) :
    d.entryAt? other = some .folder := by
  by_cases hother : other = place
  · subst hother
    by_cases hroot : other = []
    · subst hroot
      rfl
    · rw [entryAt?_put_self d _ hroot] at h
      cases h
  · rw [entryAt?_put_of_ne d _ hother] at h
    exact h

/-- A file that is put where a path leads is read from there. -/
theorem read_put_of_reach
    {d : Disk} {p : Path}
    (hreach : d.reach p = .ok (d.locate p))
    (hname : p.endsInName = true)
    (hnotFolder : d.entryAt? (d.locate p) ≠ some .folder)
    (content : List UInt8) :
    (d.put (d.locate p) (.file content)).read p = .ok content := by
  refine read_of_reach ?_ (entryAt?_put_self d _ (locate_ne_nil d hname))
  exact reach_of_folders (d := d) rfl (fun _ => folder_put_of_folder _ hnotFolder) hreach

theorem isReady_of_saving
    {d : Disk} {p : Path} {n : Nat} {content : List UInt8}
    (hhere : Path.up ∉ d.here)
    (h : (d.saving p n content).error? = none) :
    d.IsReady p n := by
  rw [saving] at h
  split at h
  · cases h
  · rename_i hcreatable
    split at h
    · cases h
    · rename_i target hreplaceable
      obtain ⟨-, htemporary, hnone⟩ := (creatable_eq_ok_iff hhere).1 hcreatable
      obtain ⟨hreach, hname, hfolder⟩ := replaceable_eq_ok_iff.1 hreplaceable
      rw [apply] at hreach hfolder
      have hreach : d.reach p = .ok target :=
        reach_of_folders (d := d.put (d.temporary p n) (.file [])) rfl
          (fun _ => folder_of_put_file) hreach
      obtain rfl : target = d.locate p := eq_locate_of_reach hreach
      rw [entryAt?_put_of_ne d _ (locate_ne_temporary d n hname)] at hfolder
      exact ⟨hreach, hname, hfolder, htemporary, hnone⟩

namespace IsReady

variable {d : Disk} {p : Path} {n : Nat}

theorem noTemporary_ne_folder
    (h : d.IsReady p n) :
    d.entryAt? (d.temporary p n) ≠ some .folder := by
  rw [h.noTemporary]
  exact (Option.some_ne_none _).symm

theorem notHoldsNul_workedOut
    (h : d.IsReady p n) :
    ¬ (workedOut p).HoldsNul :=
  fun hnul => (reach_eq_ok_iff.1 h.reach).1 (holdsNul_of_workedOut hnul)

theorem saving_eq
    (h : d.IsReady p n)
    (hhere : Path.up ∉ d.here)
    (content : List UInt8) :
    d.saving p n content =
      ⟨[.create (d.temporary p n), .write (d.temporary p n) content,
        .rename (d.temporary p n) (d.locate p)], none⟩ := by
  have hcreatable : d.creatable p n = .ok () :=
    (creatable_eq_ok_iff hhere).2 ⟨h.notHoldsNul_workedOut, h.walkTemporary, h.noTemporary⟩
  have hreplaceable :
      (d.apply (.create (d.temporary p n))).replaceable p = .ok (d.locate p) := by
    rw [apply]
    refine replaceable_eq_ok_iff.2 ⟨?_, h.endsInName, ?_⟩
    · exact reach_of_folders (d := d) rfl
        (fun _ => folder_put_of_folder _ h.noTemporary_ne_folder) h.reach
    · rw [entryAt?_put_of_ne d _ (locate_ne_temporary d n h.endsInName)]
      exact h.notFolder
  simp only [saving, hcreatable, hreplaceable]

/-- **Saving puts the content where the path leads, and that is all it does.** -/
theorem applyAll_saving
    (h : d.IsReady p n)
    (hhere : Path.up ∉ d.here)
    (content : List UInt8) :
    d.applyAll (d.saving p n content).made = d.put (d.locate p) (.file content) := by
  rw [h.saving_eq hhere]
  simp only [applyAll_cons, applyAll_nil]
  rw [apply, apply, apply_rename_put _ _ _ (temporary_ne_nil d p n), put_put,
    erase_put _ h.noTemporary]

/-- A disk that took a file is ready to take the next one. -/
theorem put
    (h : d.IsReady p n)
    (content : List UInt8) :
    (d.put (d.locate p) (.file content)).IsReady p n where
  reach := reach_of_folders (d := d) rfl (fun _ => folder_put_of_folder _ h.notFolder) h.reach
  endsInName := h.endsInName
  notFolder hfolder := h.notFolder (folder_of_put_file hfolder)
  walkTemporary :=
    walk_of_folders (d := d) rfl (fun _ => folder_put_of_folder _ h.notFolder) h.walkTemporary
  noTemporary := by
    rw [← h.noTemporary]
    exact entryAt?_put_of_ne d _ (Ne.symm (locate_ne_temporary d n h.endsInName))

theorem locate_ne_nil
    (h : d.IsReady p n) :
    d.locate p ≠ [] :=
  Disk.locate_ne_nil d h.endsInName

theorem read_put
    (h : d.IsReady p n)
    (content : List UInt8) :
    (d.put (d.locate p) (.file content)).read p = .ok content :=
  read_put_of_reach h.reach h.endsInName h.notFolder content

end IsReady

end Disk

end ReversePolish
