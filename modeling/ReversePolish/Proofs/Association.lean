import Mathlib.Data.List.Nodup
import ReversePolish.Association

/-!
# Keys and entries of association lists

Giving a key a value keeps the keys as they are, apart from a new key at the
end.  So keys that differ go on differing, and entries whose keys differ are
put one after the other as they stand.
-/

namespace ReversePolish

namespace Association

universe u v

variable {κ : Type u} {ν : Type v} [DecidableEq κ]

theorem put_of_notMem
    {key : κ} (value : ν) {l : List (κ × ν)}
    (h : key ∉ l.map Prod.fst) :
    put key value l = l ++ [(key, value)] := by
  induction l with
  | nil => rfl
  | cons entry rest ih =>
      rw [List.map_cons, List.mem_cons, not_or] at h
      rw [put, if_neg (Ne.symm h.1), ih h.2, List.cons_append]

/-- Only the last value that a key gets counts. -/
theorem put_put
    (key : κ) (first second : ν) (l : List (κ × ν)) :
    put key second (put key first l) = put key second l := by
  induction l with
  | nil => simp [put]
  | cons entry rest ih =>
      by_cases h : entry.1 = key
      · simp [put, h]
      · simp [put, h, ih]

/-- The keys stay as they are, and a new key comes last. -/
theorem map_fst_put
    (key : κ) (value : ν) (l : List (κ × ν)) :
    (put key value l).map Prod.fst =
      if key ∈ l.map Prod.fst then l.map Prod.fst else l.map Prod.fst ++ [key] := by
  induction l with
  | nil => rfl
  | cons entry rest ih =>
      by_cases h : entry.1 = key
      · simp [put, h]
      · simp only [put, h, if_false, List.map_cons, ih, List.mem_cons, Ne.symm h, false_or]
        split <;> rfl

/-- Where one of two keys already stands, the order in which they get their values does not
matter. -/
theorem put_comm_of_mem
    {key other : κ} (value otherValue : ν) {l : List (κ × ν)}
    (hne : key ≠ other)
    (h : key ∈ l.map Prod.fst) :
    put other otherValue (put key value l) = put key value (put other otherValue l) := by
  induction l with
  | nil => cases h
  | cons entry rest ih =>
      by_cases hkey : entry.1 = key
      · simp [put, hkey, hne]
      · have hrest : key ∈ rest.map Prod.fst := by
          simpa [Ne.symm hkey] using h
        by_cases hother : entry.1 = other
        · simp [put, hother, Ne.symm hne]
        · simp [put, hkey, hother, ih hrest]

/-- Two keys that are both new stand in the order in which they come. -/
theorem put_comm_iff
    {key other : κ} (value otherValue : ν) (l : List (κ × ν))
    (hne : key ≠ other) :
    put other otherValue (put key value l) = put key value (put other otherValue l) ↔
      key ∈ l.map Prod.fst ∨ other ∈ l.map Prod.fst := by
  constructor
  · intro hcomm
    by_contra hnew
    obtain ⟨hkey, hother⟩ := not_or.1 hnew
    have hkeys := congrArg (List.map Prod.fst) hcomm
    simp [map_fst_put, hkey, hother, hne, Ne.symm hne] at hkeys
  · rintro (hkey | hother)
    · exact put_comm_of_mem value otherValue hne hkey
    · exact (put_comm_of_mem otherValue value (Ne.symm hne) hother).symm

theorem nodup_put
    (key : κ) (value : ν) {l : List (κ × ν)}
    (h : (l.map Prod.fst).Nodup) :
    ((put key value l).map Prod.fst).Nodup := by
  rw [map_fst_put]
  split
  · exact h
  · rename_i hkey
    rw [List.nodup_append]
    refine ⟨h, List.nodup_singleton key, ?_⟩
    intro other hother last hlast heq
    rw [List.mem_singleton.1 hlast] at heq
    exact hkey (heq ▸ hother)

theorem mem_of_mem_put
    {key : κ} {value : ν} {entry : κ × ν} {l : List (κ × ν)}
    (h : entry ∈ put key value l) :
    entry = (key, value) ∨ entry ∈ l := by
  induction l with
  | nil => exact Or.inl (List.mem_singleton.1 h)
  | cons first rest ih =>
      rw [put] at h
      split at h
      · rcases List.mem_cons.1 h with heq | hrest
        · exact Or.inl heq
        · exact Or.inr (List.mem_cons_of_mem first hrest)
      · rcases List.mem_cons.1 h with heq | hrest
        · exact Or.inr (heq ▸ List.mem_cons_self)
        · exact (ih hrest).imp_right (List.mem_cons_of_mem first)

/-- Putting one new key after the other spells out the list of them. -/
theorem foldl_put
    {l known : List (κ × ν)}
    (h : ((known ++ l).map Prod.fst).Nodup) :
    l.foldl (fun known entry => put entry.1 entry.2 known) known = known ++ l := by
  induction l generalizing known with
  | nil => exact (List.append_nil known).symm
  | cons entry rest ih =>
      have hnew : entry.1 ∉ known.map Prod.fst := by
        intro hmem
        rw [List.map_append, List.map_cons, List.nodup_append] at h
        exact h.2.2 entry.1 hmem entry.1 List.mem_cons_self rfl
      rw [List.foldl_cons, put_of_notMem entry.2 hnew, ih (by simpa using h)]
      simp

theorem mem_of_find?_eq_some
    {key : κ} {value : ν} {l : List (κ × ν)}
    (h : find? key l = some value) :
    (key, value) ∈ l := by
  induction l with
  | nil => cases h
  | cons entry rest ih =>
      rw [find?] at h
      split at h
      · rename_i heq
        cases h
        exact heq ▸ List.mem_cons_self
      · exact List.mem_cons_of_mem entry (ih h)

end Association

end ReversePolish
