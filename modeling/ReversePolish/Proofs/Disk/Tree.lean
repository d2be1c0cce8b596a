import Mathlib.Data.List.Induction
import ReversePolish.Proofs.Disk.Moments
import ReversePolish.Proofs.Disk.Ways
import ReversePolish.Proofs.Text.Utf8

/-!
# Where a file may be written

The places on a disk form a tree: what has a name lies in a folder, and the
name is one that a folder can hold.  So a folder can also be reached from the
root, over the names alone.  Saving a file leaves it so.

A file may be written under a path that leads from a folder to a name, if the
name is not too long and not that of a folder.  Saving asks for more.  The
temporary file has to be made in the same folder, and its name is thirteen
bytes longer than that of the file.
-/

namespace ReversePolish

namespace Disk

/-- What has a name lies in a folder that can hold the name, and the current place is a folder. -/
structure IsTree (d : Disk) : Prop where
  folder {place : Location} {part : Text} :
    d.entryAt? (place ++ [part]) ≠ none → d.entryAt? place = some .folder
  name {place : Location} {part : Text} :
    d.entryAt? (place ++ [part]) ≠ none → part ≠ Path.up ∧ Text.Utf8.size part ≤ nameLimit
  here : d.entryAt? d.here = some .folder

theorem isTree_empty : (⟨[], []⟩ : Disk).IsTree where
  folder h := by simp [entryAt?, Association.find?] at h
  name h := by simp [entryAt?, Association.find?] at h
  here := rfl

namespace IsTree

variable {d : Disk} {place : Location} {part : Text}

/-- A tree takes an entry in each of its folders, unless a file would take the place of a folder. -/
theorem put
    {entry : Entry}
    (h : d.IsTree)
    (hfolder : d.entryAt? place = some .folder)
    (hname : part ≠ Path.up ∧ Text.Utf8.size part ≤ nameLimit)
    (hentry : entry = .folder ∨ d.entryAt? (place ++ [part]) ≠ some .folder) :
    (d.put (place ++ [part]) entry).IsTree := by
  -- No folder is lost, whichever of the two the entry is.
  have hfolders : ∀ other, d.entryAt? other = some .folder →
      (d.put (place ++ [part]) entry).entryAt? other = some .folder := by
    intro other hother
    rcases hentry with rfl | hnew
    · by_cases hplace : other = place ++ [part]
      · rw [hplace, entryAt?_put_self d _ (by simp)]
      · rw [entryAt?_put_of_ne d _ hplace, hother]
    · exact folder_put_of_folder _ hnew hother
  refine ⟨fun {front last} hpresent => ?_, fun {front last} hpresent => ?_, hfolders _ h.here⟩
  · by_cases hplace : front ++ [last] = place ++ [part]
    · obtain ⟨rfl, -⟩ := List.append_singleton_inj.1 hplace
      exact hfolders _ hfolder
    · rw [entryAt?_put_of_ne d _ hplace] at hpresent
      exact hfolders _ (h.folder hpresent)
  · by_cases hplace : front ++ [last] = place ++ [part]
    · obtain ⟨-, rfl⟩ := List.append_singleton_inj.1 hplace
      exact hname
    · rw [entryAt?_put_of_ne d _ hplace] at hpresent
      exact h.name hpresent

theorem up_notMem
    (h : d.IsTree)
    (hpresent : d.entryAt? place ≠ none) :
    Path.up ∉ place := by
  induction place using List.reverseRecOn with
  | nil => exact List.not_mem_nil
  | append_singleton front last ih =>
      rw [List.mem_append, List.mem_singleton, not_or]
      refine ⟨ih ?_, Ne.symm (h.name hpresent).1⟩
      rw [h.folder hpresent]
      exact Option.some_ne_none _

/-- A folder can be reached from the root over the names on the way. -/
theorem follow_root
    (h : d.IsTree)
    (hfolder : d.entryAt? place = some .folder) :
    d.follow [] place = .ok place := by
  induction place using List.reverseRecOn with
  | nil => rfl
  | append_singleton front last ih =>
      have hpresent : d.entryAt? (front ++ [last]) ≠ none := by
        rw [hfolder]
        exact Option.some_ne_none _
      obtain ⟨hlast, hsize⟩ := h.name hpresent
      rw [follow_append, ih (h.folder hpresent)]
      refine follow_singleton_eq_ok_iff.2 ⟨h.folder hpresent, hsize, ?_⟩
      rw [next, if_neg hlast]

end IsTree

/-- A path that can be followed to a name leads over a folder which can hold the name. -/
theorem folder_of_reach
    {d : Disk} {p : Path} {place : Location}
    (hname : p.endsInName = true)
    (hreach : d.reach p = .ok place) :
    d.entryAt? (d.locate p.parent) = some .folder ∧ Text.Utf8.size p.name ≤ nameLimit := by
  obtain ⟨hparts, -⟩ := Path.parts_eq_append hname
  obtain ⟨-, hwalk⟩ := reach_eq_ok_iff.1 hreach
  rw [walk, hparts, follow_append] at hwalk
  split at hwalk
  · cases hwalk
  · obtain ⟨folder, hfollow, hlast⟩ := Outcome.bind_eq_ok.1 hwalk
    obtain rfl : folder = d.locate p.parent := follow_eq_ok hfollow
    obtain ⟨hfolder, hsize, -⟩ := follow_singleton_eq_ok_iff.1 hlast
    exact ⟨hfolder, hsize⟩

theorem IsTree.up_notMem_here
    {d : Disk}
    (h : d.IsTree) :
    Path.up ∉ d.here := by
  refine h.up_notMem ?_
  rw [h.here]
  exact Option.some_ne_none _

/-- **Whatever is saved, a tree stays one.** -/
theorem IsTree.applyAll_saving
    {d : Disk}
    (h : d.IsTree)
    (p : Path) (n : Nat) (content : List UInt8) :
    (d.applyAll (d.saving p n content).made).IsTree := by
  cases herror : (d.saving p n content).error? with
  | some e =>
      rw [applyAll_saving_of_error h.up_notMem_here herror]
      exact h
  | none =>
      have hready := isReady_of_saving h.up_notMem_here herror
      obtain ⟨hfolder, hsize⟩ := folder_of_reach hready.endsInName hready.reach
      have hnotFolder := hready.notFolder
      rw [hready.applyAll_saving h.up_notMem_here]
      rw [locate_eq_append d hready.endsInName] at hnotFolder ⊢
      exact h.put hfolder ⟨(Path.parts_eq_append hready.endsInName).2, hsize⟩ (Or.inr hnotFolder)

/-! ### Paths for files -/

/-- A file may be written under a path: it holds no NUL and leads from a folder to a name that is
not too long and not that of a folder. -/
structure IsWritable (d : Disk) (p : Path) : Prop where
  notHoldsNul : ¬ p.HoldsNul
  parent : d.find p.parent = .ok .folder
  endsInName : p.endsInName = true
  notFolder : d.entryAt? (d.locate p) ≠ some .folder
  nameFits : Text.Utf8.size p.name ≤ nameLimit
  pathFits : Text.Utf8.size p.toText ≤ pathLimit

namespace IsWritable

variable {d : Disk} {p : Path} {n : Nat}

theorem folder
    (h : d.IsWritable p) :
    d.follow (d.start p) p.parent.parts = .ok (d.locate p.parent) ∧
      d.entryAt? (d.locate p.parent) = some .folder := by
  obtain ⟨place, hreach, hentry⟩ := find_eq_ok_iff.1 h.parent
  obtain rfl : place = d.locate p.parent := eq_locate_of_reach hreach
  refine ⟨?_, hentry⟩
  obtain ⟨-, hwalk⟩ := reach_eq_ok_iff.1 hreach
  rw [walk] at hwalk
  split at hwalk
  · cases hwalk
  · exact hwalk

/-- A path for a file can be followed. -/
theorem reach_eq
    (h : d.IsWritable p) :
    d.reach p = .ok (d.locate p) := by
  obtain ⟨hparts, hname⟩ := Path.parts_eq_append h.endsInName
  obtain ⟨hfollow, hfolder⟩ := h.folder
  rw [reach_of_not_holdsNul d h.notHoldsNul, walk, if_neg (Nat.not_lt.2 h.pathFits), hparts,
    follow_append, hfollow, locate_eq_append d h.endsInName]
  refine follow_singleton_eq_ok_iff.2 ⟨hfolder, h.nameFits, ?_⟩
  rw [next, if_neg hname]

/-- What is written under a path for a file is read from there. -/
theorem read_put
    (h : d.IsWritable p)
    (content : List UInt8) :
    (d.put (d.locate p) (.file content)).read p = .ok content :=
  read_put_of_reach h.reach_eq h.endsInName h.notFolder content

end IsWritable

/-! ### The temporary file -/

theorem mem_tagAlphabet_of_mem_spelled
    {width n : Nat} {c : Char}
    (h : c ∈ spelled width n) :
    c ∈ tagAlphabet := by
  induction width generalizing n with
  | zero => cases h
  | succ width ih =>
      rw [spelled, List.mem_append, List.mem_singleton] at h
      rcases h with h | rfl
      · exact ih h
      · rw [List.getD_eq_getElem?_getD]
        cases hget : tagAlphabet[n % tagAlphabet.length]? with
        | none => decide
        | some c => exact List.mem_of_getElem? hget

/-- The name of the temporary file is thirteen bytes longer than that of the file. -/
theorem size_temporaryEnding
    (n : Nat) :
    Text.Utf8.size (temporaryEnding n) = 13 := by
  have htag : Text.Utf8.size (tag n) = 8 := by
    rw [Text.Utf8.size_eq_length, length_tag, tagLength]
    intro c hc
    have hall : (tagAlphabet.all fun c => c.utf8Size == 1) = true := by
      decide
    exact eq_of_beq (List.all_eq_true.1 hall c (mem_tagAlphabet_of_mem_spelled hc))
  rw [temporaryEnding, List.cons_append, Text.Utf8.size, Text.Utf8.size_append, htag]
  rfl

/-- The name of the temporary file is one that a folder can hold, and its path is not too long. -/
structure TemporaryFits (d : Disk) (p : Path) (n : Nat) : Prop where
  name : Text.Utf8.size p.name + 13 ≤ nameLimit
  path : Text.Utf8.size (d.temporaryPath p n).toText ≤ pathLimit

section Saving

variable {d : Disk} {p : Path} {n : Nat}

/-- Where a file may be written, it can be saved if the name of the temporary file is free and is
not too long. -/
theorem IsWritable.isReady
    (h : d.IsWritable p)
    (htree : d.IsTree)
    (hfree : d.entryAt? (d.temporary p n) = none)
    (hfits : d.TemporaryFits p n) :
    d.IsReady p n where
  reach := h.reach_eq
  endsInName := h.endsInName
  notFolder := h.notFolder
  noTemporary := hfree
  walkTemporary := by
    have hup := up_notMem_temporary p n htree.up_notMem_here
    rw [walk, if_neg (Nat.not_lt.2 hfits.path), start_temporaryPath, temporaryPath]
    rw [temporary] at hup ⊢
    rw [List.mem_append, List.mem_singleton, not_or] at hup
    refine (follow_append _ _ _ _).trans ?_
    rw [htree.follow_root h.folder.2]
    refine follow_singleton_eq_ok_iff.2 ⟨h.folder.2, ?_, ?_⟩
    · rw [Text.Utf8.size_append, size_temporaryEnding]
      exact hfits.name
    · rw [next, if_neg (Ne.symm hup.2)]

theorem IsWritable.isTooLong_temporary
    (h : d.IsWritable p)
    (htree : d.IsTree)
    (hfits : ¬ d.TemporaryFits p n) :
    d.IsTooLong (d.temporaryPath p n) := by
  by_cases hpath : pathLimit < Text.Utf8.size (d.temporaryPath p n).toText
  · exact .path hpath
  · have hfollow : d.follow (d.start (d.temporaryPath p n)) (d.locate p.parent) =
        .ok (d.locate p.parent) := by
      rw [start_temporaryPath]
      exact htree.follow_root h.folder.2
    refine .name rfl hfollow h.folder.2 ?_
    rw [Text.Utf8.size_append, size_temporaryEnding]
    exact Nat.not_le.1 fun hname => hfits ⟨hname, Nat.not_lt.1 hpath⟩

/-- Where the name of the temporary file is too long, nothing is saved. -/
theorem IsWritable.saving_eq_error
    (h : d.IsWritable p)
    (htree : d.IsTree)
    (hfits : ¬ d.TemporaryFits p n)
    (content : List UInt8) :
    d.saving p n content = ⟨[], some .nameTooLong⟩ := by
  have hnul : ¬ (workedOut p).HoldsNul := fun hworkedOut =>
    h.notHoldsNul (holdsNul_of_workedOut hworkedOut)
  have hcreatable : d.creatable p n = .error .nameTooLong := by
    rw [creatable, if_neg hnul]
    exact Outcome.bind_eq_error.2 (Or.inl (h.isTooLong_temporary htree hfits).walk_eq)
  simp only [saving, hcreatable]

end Saving

end Disk

end ReversePolish
