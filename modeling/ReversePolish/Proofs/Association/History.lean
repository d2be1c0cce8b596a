import Mathlib.Data.List.Induction
import ReversePolish.Proofs.Association

/-!
# What a history of keys and values comes to

A history lists keys with the values that they were given, the latest last.
It settles to an association list: every key stands where it first came, with
the value that it was given last.  Putting the pairs of a history one after
the other into an empty list gives just that.
-/

namespace ReversePolish

namespace Association

universe u v

variable {κ : Type u} {ν : Type v} [DecidableEq κ]

/-- The value that a key is given last. -/
def last? (key : κ) (history : List (κ × ν)) : Option ν :=
  find? key history.reverse

/-- What a history comes to: the first key with the value that it is given last, and behind it
what the rest comes to for the other keys. -/
def settle : List (κ × ν) → List (κ × ν)
  | [] => []
  | (key, value) :: later => (key, (last? key later).getD value) :: erase key (settle later)

/-! ### Last values -/

theorem find?_append
    (key : κ) (l m : List (κ × ν)) :
    find? key (l ++ m) = (find? key l).or (find? key m) := by
  induction l with
  | nil => rfl
  | cons entry rest ih =>
      by_cases h : entry.1 = key
      · simp [find?, h]
      · simp [find?, h, ih]

theorem find?_eq_none_iff
    {key : κ} {l : List (κ × ν)} :
    find? key l = none ↔ key ∉ l.map Prod.fst := by
  induction l with
  | nil => simp [find?]
  | cons entry rest ih =>
      by_cases h : entry.1 = key
      · simp [find?, h]
      · rw [find?, if_neg h, ih, List.map_cons, List.mem_cons, not_or]
        exact ⟨fun hrest => ⟨Ne.symm h, hrest⟩, And.right⟩

theorem last?_cons
    (key other : κ) (value : ν) (later : List (κ × ν)) :
    last? key ((other, value) :: later) =
      (last? key later).or (if other = key then some value else none) := by
  rw [last?, List.reverse_cons, find?_append]
  rfl

theorem last?_concat
    (key other : κ) (value : ν) (history : List (κ × ν)) :
    last? key (history ++ [(other, value)]) =
      if other = key then some value else last? key history := by
  rw [last?, List.reverse_append]
  rfl

theorem last?_eq_none_iff
    {key : κ} {history : List (κ × ν)} :
    last? key history = none ↔ key ∉ history.map Prod.fst := by
  rw [last?, find?_eq_none_iff, List.map_reverse, List.mem_reverse]

/-- Pairs with other keys do not matter. -/
theorem last?_filter
    {key : κ} {P : κ → Prop} [DecidablePred P] (history : List (κ × ν))
    (h : P key) :
    last? key (history.filter fun pair => P pair.1) = last? key history := by
  induction history with
  | nil => rfl
  | cons pair later ih =>
      obtain ⟨other, value⟩ := pair
      by_cases hother : P other
      · rw [List.filter_cons_of_pos (by simpa using hother), last?_cons, last?_cons, ih]
      · have hne : other ≠ key := by
          rintro rfl
          exact hother h
        rw [List.filter_cons_of_neg (by simpa using hother), last?_cons, ih, if_neg hne,
          Option.or_none]

/-! ### Keys that differ -/

/-- Among keys that differ, a key stands with the value that is found for it. -/
theorem mem_iff_find?_eq_some
    {key : κ} {value : ν} {l : List (κ × ν)}
    (h : (l.map Prod.fst).Nodup) :
    (key, value) ∈ l ↔ find? key l = some value := by
  refine ⟨fun hmem => ?_, mem_of_find?_eq_some⟩
  induction l with
  | nil => cases hmem
  | cons entry rest ih =>
      rw [List.map_cons, List.nodup_cons] at h
      rcases List.mem_cons.1 hmem with rfl | hrest
      · simp [find?]
      · have hne : entry.1 ≠ key := by
          rintro rfl
          exact h.1 (List.mem_map.2 ⟨_, hrest, rfl⟩)
        rw [find?, if_neg hne]
        exact ih h.2 hrest

/-! ### What a history settles to -/

theorem erase_put_self
    (key : κ) (value : ν) (l : List (κ × ν)) :
    erase key (put key value l) = erase key l := by
  induction l with
  | nil => simp [put, erase]
  | cons entry rest ih =>
      by_cases h : entry.1 = key
      · simp [put, erase, h]
      · simpa [put, erase, List.filter_cons, h] using ih

theorem erase_put_of_ne
    {key other : κ} (value : ν) (l : List (κ × ν))
    (h : key ≠ other) :
    erase other (put key value l) = put key value (erase other l) := by
  induction l with
  | nil => simp [put, erase, h]
  | cons entry rest ih =>
      by_cases hkey : entry.1 = key
      · simp [put, erase, hkey, h]
      · by_cases hother : entry.1 = other
        · simpa [put, erase, hother, Ne.symm h] using ih
        · simpa [put, erase, List.filter_cons, hkey, hother] using ih

/-- One more pair is put into what the history came to so far. -/
theorem settle_concat
    (history : List (κ × ν)) (key : κ) (value : ν) :
    settle (history ++ [(key, value)]) = put key value (settle history) := by
  induction history with
  | nil => rfl
  | cons pair later ih =>
      obtain ⟨first, firstValue⟩ := pair
      rw [List.cons_append, settle, settle, ih, last?_concat, put]
      by_cases h : first = key
      · subst h
        rw [if_pos rfl, if_pos rfl, erase_put_self]
        rfl
      · rw [if_neg (Ne.symm h), if_neg h, erase_put_of_ne value _ (Ne.symm h)]

/-- **Putting the pairs of a history one after the other gives what the history settles to.** -/
theorem foldl_put_eq_settle
    (history : List (κ × ν)) :
    history.foldl (fun known pair => put pair.1 pair.2 known) [] = settle history := by
  induction history using List.reverseRecOn with
  | nil => rfl
  | append_singleton history pair ih =>
      rw [List.foldl_append, ih, settle_concat]
      rfl

theorem find?_settle
    (key : κ) (history : List (κ × ν)) :
    find? key (settle history) = last? key history := by
  induction history using List.reverseRecOn with
  | nil => rfl
  | append_singleton history pair ih =>
      obtain ⟨other, value⟩ := pair
      rw [settle_concat, last?_concat]
      by_cases h : other = key
      · subst h
        rw [if_pos rfl, find?_put_self]
      · rw [if_neg h, find?_put_of_ne value _ (Ne.symm h), ih]

theorem nodup_settle
    (history : List (κ × ν)) :
    ((settle history).map Prod.fst).Nodup := by
  induction history using List.reverseRecOn with
  | nil => exact List.nodup_nil
  | append_singleton history pair ih =>
      rw [settle_concat]
      exact nodup_put pair.1 pair.2 ih

/-- A history settles to its keys, each with the value that it is given last. -/
theorem mem_settle_iff
    {key : κ} {value : ν} {history : List (κ × ν)} :
    (key, value) ∈ settle history ↔ last? key history = some value := by
  rw [mem_iff_find?_eq_some (nodup_settle history), find?_settle]

/-- The keys of a history stand in the order in which they first came. -/
theorem map_fst_settle
    [BEq κ] [LawfulBEq κ]
    (history : List (κ × ν)) :
    (settle history).map Prod.fst = (history.map Prod.fst).eraseDups := by
  induction history using List.reverseRecOn with
  | nil => rfl
  | append_singleton history pair ih =>
      rw [settle_concat, map_fst_put, ih, List.map_append, List.eraseDups_append]
      simp only [List.mem_eraseDups]
      split
      · rename_i hmem
        simp [List.removeAll, hmem]
      · rename_i hmem
        simp [List.removeAll, hmem, List.eraseDups_cons]

end Association

end ReversePolish
