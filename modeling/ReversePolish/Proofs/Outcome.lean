/-!
# Outcomes of composed steps

A computation that may be refused goes through exactly when each of its parts
does; it is refused for the first part that is refused.
-/

namespace ReversePolish
namespace Outcome

universe u v w

variable {ε : Type u} {ε' : Type w} {α β : Type v}

theorem bind_eq_ok
    {x : Except ε α} {f : α → Except ε β} {b : β} :
    (x >>= f) = .ok b ↔ ∃ a, x = .ok a ∧ f a = .ok b := by
  cases x with
  | error e =>
      refine ⟨fun h => (by cases h), ?_⟩
      rintro ⟨a, h, -⟩
      cases h
  | ok a =>
      constructor
      · intro h
        exact ⟨a, rfl, h⟩
      · rintro ⟨a', ha, h⟩
        cases ha
        exact h

theorem bind_eq_error
    {x : Except ε α} {f : α → Except ε β} {e : ε} :
    (x >>= f) = .error e ↔ x = .error e ∨ ∃ a, x = .ok a ∧ f a = .error e := by
  cases x with
  | error e' =>
      constructor
      · intro h
        cases h
        exact Or.inl rfl
      · rintro (h | ⟨a, h, -⟩)
        · cases h
          rfl
        · cases h
  | ok a =>
      constructor
      · intro h
        exact Or.inr ⟨a, rfl, h⟩
      · rintro (h | ⟨a', ha, h⟩)
        · cases h
        · cases ha
          exact h

/-- What no part is refused for the whole is not refused for. -/
theorem bind_ne_error
    {x : Except ε α} {f : α → Except ε β} {e : ε}
    (hx : x ≠ .error e)
    (hf : ∀ a, f a ≠ .error e) :
    (x >>= f) ≠ .error e := by
  intro h
  rcases bind_eq_error.1 h with herror | ⟨a, -, herror⟩
  · exact hx herror
  · exact hf a herror

/-- A computation with only one refusal is refused when it does not go through. -/
theorem eq_error_iff_of_forall
    {x : Except ε α} {P : Prop} {e e' : ε}
    (hok : (∃ a, x = .ok a) ↔ P)
    (herror : ∀ e, x = .error e → e = e') :
    x = .error e ↔ e = e' ∧ ¬ P := by
  constructor
  · intro h
    refine ⟨herror e h, fun hP => ?_⟩
    obtain ⟨a, ha⟩ := hok.2 hP
    rw [ha] at h
    cases h
  · rintro ⟨rfl, hP⟩
    cases hx : x with
    | ok a => exact absurd (hok.1 ⟨a, hx⟩) hP
    | error other => rw [herror other hx]

theorem mapError_eq_ok
    {x : Except ε α} {f : ε → ε'} {a : α} :
    x.mapError f = .ok a ↔ x = .ok a := by
  cases x with
  | error e => exact ⟨fun h => (by cases h), fun h => (by cases h)⟩
  | ok a' =>
      constructor
      · intro h
        cases h
        rfl
      · intro h
        cases h
        rfl

theorem mapError_eq_error
    {x : Except ε α} {f : ε → ε'} {e' : ε'} :
    x.mapError f = .error e' ↔ ∃ e, x = .error e ∧ f e = e' := by
  cases x with
  | error e =>
      constructor
      · intro h
        cases h
        exact ⟨e, rfl, rfl⟩
      · rintro ⟨e, h, rfl⟩
        cases h
        rfl
  | ok a =>
      refine ⟨fun h => (by cases h), ?_⟩
      rintro ⟨e, h, -⟩
      cases h

/-! ### Item by item -/

section Items

variable {ι : Type w} {read : ι → Except ε β} {write : β → ι} {P : β → Prop}

/-- If an item is read where something that passes was written, a list of items is read where a
list of such was written. -/
theorem mapM_eq_ok_iff
    (h : ∀ i b, read i = .ok b ↔ i = write b ∧ P b)
    {items : List ι} {results : List β} :
    items.mapM read = .ok results ↔ items = results.map write ∧ ∀ b ∈ results, P b := by
  induction items generalizing results with
  | nil =>
      constructor
      · intro hread
        cases hread
        exact ⟨rfl, List.forall_mem_nil P⟩
      · rintro ⟨hitems, -⟩
        rw [List.map_eq_nil_iff.1 hitems.symm]
        rfl
  | cons i items ih =>
      rw [List.mapM_cons]
      constructor
      · intro hread
        obtain ⟨first, hfirst, hread⟩ := bind_eq_ok.1 hread
        obtain ⟨rest, hrest, hread⟩ := bind_eq_ok.1 hread
        cases hread
        obtain ⟨rfl, hpasses⟩ := (h i first).1 hfirst
        obtain ⟨rfl, hothers⟩ := ih.1 hrest
        exact ⟨rfl, List.forall_mem_cons.2 ⟨hpasses, hothers⟩⟩
      · rintro ⟨hitems, hresults⟩
        obtain ⟨first, rest, rfl, rfl, rfl⟩ := List.map_eq_cons_iff.1 hitems.symm
        obtain ⟨hfirst, hrest⟩ := List.forall_mem_cons.1 hresults
        refine bind_eq_ok.2 ⟨first, (h _ first).2 ⟨rfl, hfirst⟩, ?_⟩
        exact bind_eq_ok.2 ⟨rest, ih.2 ⟨rfl, hrest⟩, rfl⟩

/-- A list of items is refused for the first item that is refused. -/
theorem mapM_eq_error_iff
    (h : ∀ i b, read i = .ok b ↔ i = write b ∧ P b)
    {items : List ι} {e : ε} :
    items.mapM read = .error e ↔
      ∃ (before : List β) (i : ι) (after : List ι),
        items = before.map write ++ i :: after ∧ (∀ b ∈ before, P b) ∧ read i = .error e := by
  induction items with
  | nil =>
      refine ⟨fun hread => (by cases hread), ?_⟩
      rintro ⟨before, i, after, hitems, -⟩
      cases before <;> cases hitems
  | cons i items ih =>
      rw [List.mapM_cons, bind_eq_error]
      constructor
      · rintro (hfirst | ⟨first, hfirst, hread⟩)
        · exact ⟨[], i, items, rfl, List.forall_mem_nil P, hfirst⟩
        · rcases bind_eq_error.1 hread with hrest | ⟨rest, -, hread⟩
          · obtain ⟨rfl, hpasses⟩ := (h i first).1 hfirst
            obtain ⟨before, j, after, rfl, hbefore, hj⟩ := ih.1 hrest
            exact ⟨first :: before, j, after, rfl, List.forall_mem_cons.2 ⟨hpasses, hbefore⟩, hj⟩
          · cases hread
      · rintro ⟨before, j, after, hitems, hbefore, hj⟩
        cases before with
        | nil =>
            obtain ⟨rfl, rfl⟩ := List.cons.inj hitems
            exact Or.inl hj
        | cons first before =>
            obtain ⟨rfl, rfl⟩ := List.cons.inj hitems
            obtain ⟨hfirst, hbefore⟩ := List.forall_mem_cons.1 hbefore
            refine Or.inr ⟨first, (h _ first).2 ⟨rfl, hfirst⟩, bind_eq_error.2 (Or.inl ?_)⟩
            exact ih.2 ⟨before, j, after, rfl, hbefore, hj⟩

/-- Items of which each was written are what a list was written as. -/
theorem forall_written_iff
    {items : List ι} :
    (∀ i ∈ items, ∃ b, i = write b ∧ P b) ↔
      ∃ results : List β, items = results.map write ∧ ∀ b ∈ results, P b := by
  induction items with
  | nil => exact ⟨fun _ => ⟨[], rfl, List.forall_mem_nil P⟩, fun _ => List.forall_mem_nil _⟩
  | cons i items ih =>
      rw [List.forall_mem_cons, ih]
      constructor
      · rintro ⟨⟨first, rfl, hfirst⟩, rest, rfl, hrest⟩
        exact ⟨first :: rest, rfl, List.forall_mem_cons.2 ⟨hfirst, hrest⟩⟩
      · rintro ⟨results, hitems, hresults⟩
        obtain ⟨first, rest, rfl, rfl, rfl⟩ := List.map_eq_cons_iff.1 hitems.symm
        obtain ⟨hfirst, hrest⟩ := List.forall_mem_cons.1 hresults
        exact ⟨⟨first, rfl, hfirst⟩, rest, rfl, hrest⟩

/-- The item for which a list is refused comes behind items of which each was written. -/
theorem mapM_eq_error_iff_written
    (h : ∀ i b, read i = .ok b ↔ i = write b ∧ P b)
    {items : List ι} {e : ε} :
    items.mapM read = .error e ↔
      ∃ before i after, items = before ++ i :: after ∧
        (∀ j ∈ before, ∃ b, j = write b ∧ P b) ∧ read i = .error e := by
  rw [mapM_eq_error_iff h]
  constructor
  · rintro ⟨before, i, after, hitems, hbefore, hi⟩
    exact ⟨before.map write, i, after, hitems, forall_written_iff.2 ⟨before, rfl, hbefore⟩, hi⟩
  · rintro ⟨before, i, after, hitems, hbefore, hi⟩
    obtain ⟨results, rfl, hresults⟩ := forall_written_iff.1 hbefore
    exact ⟨results, i, after, hitems, hresults, hi⟩

end Items

/-! ### Computations side by side -/

variable {δ : Type u} {γ ζ : Type v}

/-- Both computations go through or both are refused, with related outcomes. -/
inductive Agree (R : α → β → Prop) (E : ε → δ → Prop) : Except ε α → Except δ β → Prop
  | ok {a : α} {b : β} (h : R a b) : Agree R E (.ok a) (.ok b)
  | error {e : ε} {e' : δ} (h : E e e') : Agree R E (.error e) (.error e')

/-- Computations agree if their first parts do and what follows keeps it so. -/
theorem Agree.bind
    {R : α → β → Prop} {S : γ → ζ → Prop} {E : ε → δ → Prop}
    {x : Except ε α} {y : Except δ β} {f : α → Except ε γ} {g : β → Except δ ζ}
    (h : Agree R E x y)
    (hfollowing : ∀ a b, R a b → Agree S E (f a) (g b)) :
    Agree S E (x >>= f) (y >>= g) := by
  cases h with
  | ok h => exact hfollowing _ _ h
  | error h => exact .error h

end Outcome
end ReversePolish
