import Mathlib.Data.List.FinRange
import Mathlib.Data.List.Nodup
import ReversePolish.Bindings.Basic
import ReversePolish.Proofs.Association

/-!
# The layout of bindings

Bindings that arise by inserting have an orderly layout: every name stands in
the chain of its bucket, and no chain holds a name twice.  Orderly bindings are
determined by the list of their pairs: inserting the pairs in that order
rebuilds the same chains.
-/

namespace ReversePolish

namespace Bindings

/-- Every name stands in its own chain, and no chain holds a name twice. -/
structure IsOrderly (b : Bindings) : Prop where
  placed : ∀ i, ∀ pair ∈ b.chain i, bucket pair.1 = i
  nodup : ∀ i, ((b.chain i).map Prod.fst).Nodup

theorem toList_eq_flatMap
    (b : Bindings) :
    b.toList = (List.finRange chainCount).flatMap b.chain := by
  have hchains : b.chains.toList = (List.finRange chainCount).map b.chain := by
    apply List.ext_getElem
    · simp
    · intro i hi hi'
      simp [chain]
  rw [toList, hchains, List.flatMap_def]

theorem mem_toList_iff
    {b : Bindings} {pair : Text × Text} :
    pair ∈ b.toList ↔ ∃ i, pair ∈ b.chain i := by
  simp [toList_eq_flatMap]

theorem mem_of_find?_eq_some
    {b : Bindings} {name value : Text}
    (h : b.find? name = some value) :
    (name, value) ∈ b.toList :=
  mem_toList_iff.2 ⟨bucket name, Association.mem_of_find?_eq_some h⟩

/-- Inserting adds one pair at most. -/
theorem mem_toList_insert
    {b : Bindings} {name value : Text} {pair : Text × Text}
    (h : pair ∈ (b.insert name value).toList) :
    pair = (name, value) ∨ pair ∈ b.toList := by
  obtain ⟨i, hi⟩ := mem_toList_iff.1 h
  by_cases hbucket : i = bucket name
  · rw [hbucket, chain_insert_self] at hi
    exact (Association.mem_of_mem_put hi).imp_right fun hmem => mem_toList_iff.2 ⟨_, hmem⟩
  · rw [chain_insert_of_ne b value hbucket] at hi
    exact Or.inr (mem_toList_iff.2 ⟨i, hi⟩)

theorem isOrderly_empty : (∅ : Bindings).IsOrderly where
  placed i pair h := by
    rw [chain_empty] at h
    cases h
  nodup i := by
    rw [chain_empty]
    exact List.nodup_nil

theorem IsOrderly.insert
    {b : Bindings}
    (h : b.IsOrderly)
    (name value : Text) :
    (b.insert name value).IsOrderly where
  placed i pair hpair := by
    by_cases hbucket : i = bucket name
    · subst hbucket
      rw [chain_insert_self] at hpair
      rcases Association.mem_of_mem_put hpair with rfl | hmem
      · rfl
      · exact h.placed _ pair hmem
    · rw [chain_insert_of_ne b value hbucket] at hpair
      exact h.placed i pair hpair
  nodup i := by
    by_cases hbucket : i = bucket name
    · subst hbucket
      rw [chain_insert_self]
      exact Association.nodup_put name value (h.nodup _)
    · rw [chain_insert_of_ne b value hbucket]
      exact h.nodup i

/-- Inserts pairs one after the other. -/
def insertAll (b : Bindings) (l : List (Text × Text)) : Bindings :=
  l.foldl (fun b pair => b.insert pair.1 pair.2) b

theorem ofList_eq_insertAll
    (l : List (Text × Text)) :
    ofList l = insertAll ∅ l := rfl

theorem IsOrderly.insertAll
    {b : Bindings}
    (h : b.IsOrderly)
    (l : List (Text × Text)) :
    (b.insertAll l).IsOrderly := by
  induction l generalizing b with
  | nil => exact h
  | cons pair rest ih => exact ih (h.insert pair.1 pair.2)

theorem isOrderly_ofList
    (l : List (Text × Text)) :
    (ofList l).IsOrderly :=
  isOrderly_empty.insertAll l

theorem mem_toList_insertAll
    {b : Bindings} {l : List (Text × Text)} {pair : Text × Text}
    (h : pair ∈ (b.insertAll l).toList) :
    pair ∈ l ∨ pair ∈ b.toList := by
  induction l generalizing b with
  | nil => exact Or.inr h
  | cons first rest ih =>
      rcases ih h with hrest | hinsert
      · exact Or.inl (List.mem_cons_of_mem first hrest)
      · rcases mem_toList_insert hinsert with rfl | hb
        · exact Or.inl List.mem_cons_self
        · exact Or.inr hb

theorem mem_toList_ofList
    {l : List (Text × Text)} {pair : Text × Text}
    (h : pair ∈ (ofList l).toList) :
    pair ∈ l := by
  have hinsert : pair ∈ ((∅ : Bindings).insertAll l).toList := h
  refine (mem_toList_insertAll hinsert).resolve_right fun hempty => ?_
  obtain ⟨i, hi⟩ := mem_toList_iff.1 hempty
  rw [chain_empty] at hi
  cases hi

/-- A chain sees only the pairs whose names belong to it. -/
theorem chain_insertAll
    (b : Bindings) (l : List (Text × Text)) (i : Fin chainCount) :
    (b.insertAll l).chain i =
      (l.filter fun pair => bucket pair.1 = i).foldl
        (fun known pair => Association.put pair.1 pair.2 known) (b.chain i) := by
  induction l generalizing b with
  | nil => rfl
  | cons pair rest ih =>
      have hstep : b.insertAll (pair :: rest) = (b.insert pair.1 pair.2).insertAll rest := rfl
      rw [hstep, ih]
      by_cases h : bucket pair.1 = i
      · subst h
        rw [List.filter_cons_of_pos (by simp), List.foldl_cons, chain_insert_self]
      · rw [List.filter_cons_of_neg (by simpa using h),
          chain_insert_of_ne b pair.2 (Ne.symm h)]

/-- Of lists laid end to end only the selected one is not empty. -/
theorem flatMap_select
    {ι α : Type} [DecidableEq ι] {l : List ι} {i : ι}
    (hnodup : l.Nodup)
    (hmem : i ∈ l)
    (selected : List α) :
    (l.flatMap fun j => if j = i then selected else []) = selected := by
  induction l with
  | nil => cases hmem
  | cons j rest ih =>
      obtain ⟨hj, hrest⟩ := List.nodup_cons.1 hnodup
      rw [List.flatMap_cons]
      by_cases h : j = i
      · subst h
        have hothers : (rest.flatMap fun k => if k = j then selected else []) = [] := by
          rw [List.flatMap_eq_nil_iff]
          intro k hk
          have hkj : k ≠ j := fun heq => hj (heq ▸ hk)
          rw [if_neg hkj]
        rw [if_pos rfl, hothers, List.append_nil]
      · rw [if_neg h, List.nil_append]
        exact ih hrest ((List.mem_cons.1 hmem).resolve_left (Ne.symm h))

theorem IsOrderly.filter_toList
    {b : Bindings}
    (h : b.IsOrderly)
    (i : Fin chainCount) :
    (b.toList.filter fun pair => bucket pair.1 = i) = b.chain i := by
  have hchain : ∀ j, (b.chain j).filter (fun pair => bucket pair.1 = i) =
      if j = i then b.chain i else [] := by
    intro j
    split
    · rename_i hj
      subst hj
      exact List.filter_eq_self.2 fun pair hpair => decide_eq_true (h.placed j pair hpair)
    · rename_i hj
      refine List.filter_eq_nil_iff.2 fun pair hpair hi => hj ?_
      rw [← h.placed j pair hpair]
      exact of_decide_eq_true hi
  rw [toList_eq_flatMap, List.filter_flatMap]
  simp only [hchain]
  exact flatMap_select (List.nodup_finRange chainCount) (List.mem_finRange i) (b.chain i)

/-- No name is bound twice, whatever the chain. -/
theorem IsOrderly.nodup_names
    {b : Bindings}
    (h : b.IsOrderly) :
    (b.toList.map Prod.fst).Nodup := by
  rw [toList_eq_flatMap, List.map_flatMap, List.nodup_flatMap]
  refine ⟨fun i _ => h.nodup i, ?_⟩
  refine (List.nodup_finRange chainCount).imp fun {i j} hne => ?_
  intro name hi hj
  obtain ⟨first, hfirst, rfl⟩ := List.mem_map.1 hi
  obtain ⟨second, hsecond, hname⟩ := List.mem_map.1 hj
  refine hne ?_
  rw [← h.placed i first hfirst, ← h.placed j second hsecond, hname]

/-- Orderly bindings are rebuilt by inserting their pairs in their order. -/
theorem IsOrderly.ofList_toList
    {b : Bindings}
    (h : b.IsOrderly) :
    ofList b.toList = b := by
  apply ext_chain
  intro i
  have hnodup : (([] ++ b.chain i).map Prod.fst).Nodup := h.nodup i
  rw [ofList_eq_insertAll, chain_insertAll, h.filter_toList, chain_empty,
    Association.foldl_put hnodup, List.nil_append]

end Bindings

end ReversePolish
