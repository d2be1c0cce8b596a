import ReversePolish.Proofs.Bindings.Order

/-!
# When the order of insertions matters

Of two values for one name only the later counts.  Two names may be inserted
in either order without a difference to what is found afterwards.  To the
chains there is a difference in one case only: both names are new and belong
to the same chain, which then holds them in the order in which they came.
-/

namespace ReversePolish

namespace Bindings

theorem chain_insert
    (b : Bindings) (name value : Text) (i : Fin chainCount) :
    (b.insert name value).chain i =
      if i = bucket name then Association.put name value (b.chain i) else b.chain i := by
  split
  · rename_i h
    rw [h, chain_insert_self]
  · rename_i h
    exact chain_insert_of_ne b value h

/-! ### One name -/

/-- A name that is inserted again has its latest value, where it stood before. -/
theorem insert_insert
    (b : Bindings) (name value latest : Text) :
    (b.insert name value).insert name latest = b.insert name latest := by
  apply ext_chain
  intro i
  simp only [chain_insert]
  split
  · exact Association.put_put name value latest _
  · rfl

theorem insert_eq_insert_iff
    {b : Bindings} {name value other : Text} :
    b.insert name value = b.insert name other ↔ value = other := by
  constructor
  · intro h
    have hfind := congrArg (fun b => b.find? name) h
    simpa using hfind
  · rintro rfl
    rfl

/-! ### Two names -/

section TwoNames

variable {name other : Text} (b : Bindings) (value otherValue : Text)

theorem insert_comm_of_bucket_ne
    (h : bucket name ≠ bucket other) :
    (b.insert name value).insert other otherValue =
      (b.insert other otherValue).insert name value := by
  apply ext_chain
  intro i
  simp only [chain_insert]
  by_cases hname : i = bucket name
  · simp [hname, h]
  · simp [hname]

/-- In one chain two names commute if one of them already stands there. -/
theorem insert_comm_iff_of_bucket_eq
    (hne : name ≠ other)
    (h : bucket name = bucket other) :
    (b.insert name value).insert other otherValue =
        (b.insert other otherValue).insert name value ↔
      name ∈ (b.chain (bucket name)).map Prod.fst ∨
        other ∈ (b.chain (bucket other)).map Prod.fst := by
  have hchains : (b.insert name value).insert other otherValue =
        (b.insert other otherValue).insert name value ↔
      Association.put other otherValue (Association.put name value (b.chain (bucket name))) =
        Association.put name value
          (Association.put other otherValue (b.chain (bucket name))) := by
    constructor
    · intro heq
      have hchain := congrArg (fun b => b.chain (bucket name)) heq
      simpa [chain_insert, h] using hchain
    · intro heq
      apply ext_chain
      intro i
      by_cases hi : i = bucket name
      · simpa [chain_insert, hi, h] using heq
      · simp [chain_insert, hi, ← h]
  rw [hchains, Association.put_comm_iff value otherValue _ hne, ← h]

/-- **Two names commute unless both are new and belong to the same chain.** -/
theorem insert_comm_iff
    (hne : name ≠ other) :
    (b.insert name value).insert other otherValue =
        (b.insert other otherValue).insert name value ↔
      bucket name ≠ bucket other ∨ name ∈ (b.chain (bucket name)).map Prod.fst ∨
        other ∈ (b.chain (bucket other)).map Prod.fst := by
  by_cases h : bucket name = bucket other
  · rw [insert_comm_iff_of_bucket_eq b value otherValue hne h]
    simp [h]
  · exact iff_of_true (insert_comm_of_bucket_ne b value otherValue h) (Or.inl h)

/-- What is found does not depend on the order of two names. -/
theorem find?_insert_comm
    (hne : name ≠ other)
    (key : Text) :
    ((b.insert name value).insert other otherValue).find? key =
      ((b.insert other otherValue).insert name value).find? key := by
  by_cases hname : key = name
  · subst hname
    rw [find?_insert_of_ne _ _ hne, find?_insert_self, find?_insert_self]
  · rw [find?_insert_of_ne (b.insert other otherValue) value hname]
    by_cases hother : key = other
    · subst hother
      rw [find?_insert_self, find?_insert_self]
    · rw [find?_insert_of_ne _ _ hother, find?_insert_of_ne _ _ hother,
        find?_insert_of_ne _ _ hname]

end TwoNames

/-- In bindings that arise by inserting, a name stands in its own chain or nowhere. -/
theorem mem_chain_bucket_ofList_iff
    (history : List (Text × Text)) (name : Text) :
    name ∈ ((ofList history).chain (bucket name)).map Prod.fst ↔
      name ∈ (ofList history).toList.map Prod.fst := by
  rw [map_fst_chain_ofList, List.mem_eraseDups, mem_names_ofList_iff]
  simp

/-- **When the order of insertions matters**, in bindings with any history: two insertions commute
exactly if they are the same, or if their names differ and belong to different chains or are not
both new. -/
theorem ofList_insert_comm_iff
    (history : List (Text × Text)) (name value other otherValue : Text) :
    let b := ofList history
    let names := b.toList.map Prod.fst
    let first := (b.insert name value).insert other otherValue
    let second := (b.insert other otherValue).insert name value
    (first = second ↔
        (name = other ∧ value = otherValue) ∨
          (name ≠ other ∧ (bucket name ≠ bucket other ∨ name ∈ names ∨ other ∈ names))) ∧
      (name ≠ other → ∀ key, first.find? key = second.find? key) ∧
      (b.insert name value).insert name otherValue = b.insert name otherValue := by
  intro b names first second
  refine ⟨?_, find?_insert_comm b value otherValue, insert_insert b name value otherValue⟩
  by_cases hname : name = other
  · subst hname
    have hsame : first = second ↔ otherValue = value := by
      rw [show first = b.insert name otherValue from insert_insert b name value otherValue,
        show second = b.insert name value from insert_insert b name otherValue value]
      exact insert_eq_insert_iff
    rw [hsame]
    simp [eq_comm]
  · rw [insert_comm_iff b value otherValue hname, mem_chain_bucket_ofList_iff,
      mem_chain_bucket_ofList_iff]
    simp [hname, names, b]

/-- `A`, `D` and `K` share a chain.  In it the new names `A` and `D` do not commute, but each of
them does with `K`, which is already there. -/
theorem ofList_insert_comm_iff_shared_chain :
    let b := ofList [("K".toList, "1".toList)]
    let first := (b.insert "A".toList "2".toList).insert "D".toList "3".toList
    let second := (b.insert "D".toList "3".toList).insert "A".toList "2".toList
    first ≠ second ∧ (∀ key, first.find? key = second.find? key) ∧
      (b.insert "A".toList "2".toList).insert "K".toList "3".toList =
        (b.insert "K".toList "3".toList).insert "A".toList "2".toList := by
  intro b first second
  obtain ⟨hcomm, hfind, -⟩ := ofList_insert_comm_iff [("K".toList, "1".toList)]
    "A".toList "2".toList "D".toList "3".toList
  obtain ⟨hbound, -⟩ := ofList_insert_comm_iff [("K".toList, "1".toList)]
    "A".toList "2".toList "K".toList "3".toList
  exact ⟨hcomm.not.2 (by decide +kernel), hfind (by decide), hbound.2 (by decide +kernel)⟩

end Bindings

end ReversePolish
