import Mathlib.Data.Finset.Card
import ReversePolish.Proofs.Association.History
import ReversePolish.Proofs.Bindings.Layout

/-!
# The order of bindings

Inserting names with values, whatever the names are and however often they
come, makes bindings that remember two things of their history: the value
that each name was given last and, chain by chain, the order in which the
names first came.  Listing and displaying go through the chains in order.
-/

namespace ReversePolish

namespace Bindings

/-! ### Chains -/

/-- A chain is what its part of the history settles to. -/
theorem chain_ofList
    (history : List (Text × Text)) (i : Fin chainCount) :
    (ofList history).chain i =
      Association.settle (history.filter fun pair => bucket pair.1 = i) := by
  rw [ofList_eq_insertAll, chain_insertAll, chain_empty, Association.foldl_put_eq_settle]

/-- The names of a chain are those of its bucket, as they first came. -/
theorem map_fst_chain_ofList
    (history : List (Text × Text)) (i : Fin chainCount) :
    ((ofList history).chain i).map Prod.fst =
      ((history.map Prod.fst).filter fun name => bucket name = i).eraseDups := by
  rw [chain_ofList, Association.map_fst_settle, List.filter_map]
  rfl

theorem mem_chain_ofList_iff
    {history : List (Text × Text)} {i : Fin chainCount} {name value : Text} :
    (name, value) ∈ (ofList history).chain i ↔
      bucket name = i ∧ Association.last? name history = some value := by
  rw [chain_ofList, Association.mem_settle_iff]
  by_cases hbucket : bucket name = i
  · rw [Association.last?_filter (P := fun other => bucket other = i) history hbucket]
    exact (and_iff_right hbucket).symm
  · have hnone : Association.last? name (history.filter fun pair => bucket pair.1 = i) = none := by
      rw [Association.last?_eq_none_iff]
      simp [hbucket]
    simp [hnone, hbucket]

theorem find?_ofList
    (history : List (Text × Text)) (name : Text) :
    (ofList history).find? name = Association.last? name history := by
  rw [find?, chain_ofList, Association.find?_settle]
  exact Association.last?_filter (P := fun other => bucket other = bucket name) history rfl

/-! ### All bindings -/

/-- The names that are bound are those of the history. -/
theorem mem_names_ofList_iff
    {history : List (Text × Text)} {name : Text} :
    name ∈ (ofList history).toList.map Prod.fst ↔ name ∈ history.map Prod.fst := by
  have hchain : ∀ i, name ∈ ((ofList history).chain i).map Prod.fst ↔
      name ∈ history.map Prod.fst ∧ bucket name = i := by
    intro i
    rw [map_fst_chain_ofList, List.mem_eraseDups, List.mem_filter, decide_eq_true_iff]
  rw [toList_eq_flatMap, List.map_flatMap, List.mem_flatMap]
  simp only [hchain]
  constructor
  · rintro ⟨i, -, hname, -⟩
    exact hname
  · intro hname
    exact ⟨bucket name, List.mem_finRange _, hname, rfl⟩

/-- There are as many bindings as the history has different names. -/
theorem size_ofList
    (history : List (Text × Text)) :
    (ofList history).size = (history.map Prod.fst).toFinset.card := by
  have hnames : ((ofList history).toList.map Prod.fst).toFinset =
      (history.map Prod.fst).toFinset := by
    ext name
    rw [List.mem_toFinset, List.mem_toFinset, mem_names_ofList_iff]
  rw [← hnames, List.toFinset_card_of_nodup (isOrderly_ofList history).nodup_names,
    List.length_map, size]

/-- Between the braces there is a line for each binding, chain by chain. -/
theorem render_eq
    (b : Bindings) :
    b.render = '\x7b' ::
      ((List.finRange chainCount).flatMap fun i => (b.chain i).flatMap fun (name, value) =>
        "\n\t[".toList ++ name ++ ": ".toList ++ value ++ [']']) ++ "\n\x7d".toList := by
  rw [render, List.cons_append, Text.intercalate_cons, List.flatMap_append, List.flatMap_map,
    toList_eq_flatMap, List.flatMap_assoc]
  simp [renderPair]

/-- **Inserting makes a map that keeps, chain by chain, the order in which the names first came.**
Each name has the value that it was given last, and chains are listed in their order. -/
theorem ofList_keeps_order
    (history : List (Text × Text)) :
    let b := ofList history
    (∀ i, (b.chain i).map Prod.fst =
        ((history.map Prod.fst).filter fun name => bucket name = i).eraseDups) ∧
      (∀ i name value, (name, value) ∈ b.chain i ↔
        bucket name = i ∧ Association.last? name history = some value) ∧
      (∀ name, b.find? name = Association.last? name history) ∧
      (∀ name, b.find? name = none ↔ name ∉ history.map Prod.fst) ∧
      b.size = (history.map Prod.fst).toFinset.card ∧
      b.toList = (List.finRange chainCount).flatMap b.chain ∧
      b.render = '\x7b' ::
        ((List.finRange chainCount).flatMap fun i => (b.chain i).flatMap fun (name, value) =>
          "\n\t[".toList ++ name ++ ": ".toList ++ value ++ [']']) ++ "\n\x7d".toList := by
  intro b
  refine ⟨map_fst_chain_ofList history, ?_, find?_ofList history, ?_, size_ofList history,
    toList_eq_flatMap b, render_eq b⟩
  · exact fun i name value => mem_chain_ofList_iff
  · intro name
    rw [find?_ofList, Association.last?_eq_none_iff]

/-- `A` and `K` share a chain: `K` stays before `A`, and has its new value. -/
example :
    (ofList [("K".toList, "1".toList), ("B".toList, "2".toList), ("A".toList, "4".toList),
        ("K".toList, "3".toList)]).toList =
      [("B".toList, "2".toList), ("K".toList, "3".toList), ("A".toList, "4".toList)] := by
  decide +kernel

end Bindings

end ReversePolish
