import ReversePolish.Proofs.Session.Parallel
import ReversePolish.Proofs.Session.Reading
import ReversePolish.Proofs.Word.Grammar

/-!
# Variables in place of their values

A variable stays on the stack unresolved until an operator takes it.  As long
as nothing is assigned, this cannot be told from its value: two stacks of
which each pair of entries is one text or stands for one integer, in whatever
spelling, are taken through the same words side by side.  Both evaluations go
through, or both stop at the same word for the same cause, and the stacks go on
to correspond.
-/

namespace ReversePolish

namespace Bindings

/-- The same names are bound, and each to equal integers. -/
def SameValues (a b : Bindings) : Prop :=
  ∀ name, (a.find? name).map Text.number? = (b.find? name).map Text.number?

/-- The texts are the same, or both stand for one integer. -/
def Interchangeable (a b : Bindings) (t t' : Text) : Prop :=
  t = t' ∨ ∃ value, a.number? t = some value ∧ b.number? t' = some value

variable {a b : Bindings} {t t' : Text}

theorem SameValues.number?_eq
    (h : a.SameValues b)
    (t : Text) :
    a.number? t = b.number? t := by
  have hbound : (a.find? t).bind Text.number? = (b.find? t).bind Text.number? := by
    simpa [Option.bind_map] using congrArg (Option.bind · id) (h t)
  rw [number?, number?, hbound]

/-- Entries that may stand for each other are resolved alike, also if the variable is unknown. -/
theorem Interchangeable.resolve_eq
    (h : a.Interchangeable b t t')
    (hvalues : a.SameValues b)
    (ha : a.HasIntegers)
    (hb : b.HasIntegers)
    (ht : t.IsOperand)
    (ht' : t'.IsOperand) :
    b.resolve t' = a.resolve t := by
  rw [ha.resolve ht, hb.resolve ht']
  rcases h with rfl | ⟨value, hvalue, hvalue'⟩
  · rw [hvalues.number?_eq]
  · rw [hvalue, hvalue']

end Bindings

namespace Session

open Bindings (Interchangeable)

/-- Valid sessions that bind the same names to equal integers, and whose entries may stand for each
other one by one. -/
structure Alike (s t : Session) : Prop where
  valid : s.IsValid
  valid' : t.IsValid
  values : s.bindings.SameValues t.bindings
  entries : List.Forall₂ (Interchangeable s.bindings t.bindings) s.stack.entries t.stack.entries

namespace Alike

variable {s t : Session}

theorem push
    {entry : Text}
    (h : s.Alike t)
    (hentry : entry.IsOperand) :
    (s.push entry).Alike (t.push entry) where
  valid := h.valid.push hentry
  valid' := h.valid'.push hentry
  values := h.values
  entries := .cons (Or.inl rfl) h.entries

/-- Operands are missing in both sessions or in neither. -/
theorem exists_takeOperands_eq_error
    (h : s.Alike t)
    (restored : Session)
    (hoperands : s.takeOperands = .error restored) :
    ∃ restored', t.takeOperands = .error restored' := by
  rw [exists_takeOperands_eq_error_iff, ← h.entries.length_eq]
  exact (takeOperands_eq_error hoperands).2

/-- Operands that are taken are resolved alike, and what is left is alike. -/
theorem of_takeOperands
    {popped : Session} {left right : Text}
    (h : s.Alike t)
    (hoperands : s.takeOperands = .ok (left, right, popped)) :
    ∃ left' right' popped', t.takeOperands = .ok (left', right', popped') ∧
      popped'.bindings.resolve left' = popped.bindings.resolve left ∧
      popped'.bindings.resolve right' = popped.bindings.resolve right ∧
      popped.Alike popped' := by
  obtain ⟨hentries, hbindings⟩ := takeOperands_eq_ok hoperands
  obtain ⟨hleft, hright, hpopped⟩ := h.valid.of_takeOperands hoperands
  cases hoperands' : t.takeOperands with
  | error restored =>
      have hmissing := (takeOperands_eq_error hoperands').2
      rw [← h.entries.length_eq, ← exists_takeOperands_eq_error_iff, hoperands] at hmissing
      obtain ⟨_, hmissing⟩ := hmissing
      cases hmissing
  | ok taken =>
      obtain ⟨left', right', popped'⟩ := taken
      obtain ⟨hentries', hbindings'⟩ := takeOperands_eq_ok hoperands'
      obtain ⟨hleft', hright', hpopped'⟩ := h.valid'.of_takeOperands hoperands'
      have hvalues := h.values
      have hmatching := h.entries
      rw [← hbindings, ← hbindings'] at hvalues hmatching
      rw [hentries, hentries', List.forall₂_cons, List.forall₂_cons] at hmatching
      obtain ⟨hleftMatching, hrightMatching, hbelow⟩ := hmatching
      exact ⟨left', right', popped', rfl,
        hleftMatching.resolve_eq hvalues hpopped.hasIntegers hpopped'.hasIntegers hleft hleft',
        hrightMatching.resolve_eq hvalues hpopped.hasIntegers hpopped'.hasIntegers hright hright',
        hpopped, hpopped', hvalues, hbelow⟩

end Alike

/-- Sessions that are alike, with the bindings with which an evaluation began. -/
structure AlikeOn (a b : Bindings) (s t : Session) : Prop where
  alike : s.Alike t
  bindings : s.bindings = a
  bindings' : t.bindings = b

/-- A word that is no assignment keeps sessions alike and leaves the bindings as they are. -/
theorem AlikeOn.step
    {a b : Bindings} {s t : Session} {w : Word}
    (h : AlikeOn a b s t)
    (hw : Token.ofText? w.text = .ok w.token?)
    (hassign : w.token? ≠ some (.operator .assign)) :
    Outcome.Agree (AlikeOn a b) (Interruption.Parallel (AlikeOn a b)) (s.step w) (t.step w) := by
  refine step_parallel h ?_ fun op htoken =>
    operate_parallel h h.alike.exists_takeOperands_eq_error ?_
  · intro token htoken hoperand
    rw [htoken] at hw
    exact ⟨h.alike.push (Text.isOperand_iff.2 ⟨token, hw, hoperand⟩), h.bindings, h.bindings'⟩
  · intro left right popped hoperands
    obtain ⟨left', right', popped', hoperands', hleft, hright, hpopped⟩ :=
      h.alike.of_takeOperands hoperands
    have hbindings := (takeOperands_eq_ok hoperands).2.trans h.bindings
    have hbindings' := (takeOperands_eq_ok hoperands').2.trans h.bindings'
    cases op with
    | assign => exact absurd htoken hassign
    | arithmetic operation =>
        refine ⟨left', right', popped', hoperands', ?_, ⟨hpopped, hbindings, hbindings'⟩, ?_⟩
        · rw [Operator.effect, Operator.effect, hleft, hright]
        · intro effect heffect
          obtain ⟨n, hfits, rfl⟩ := Operator.effect_arithmetic_eq_ok heffect
          exact ⟨hpopped.push (Or.inl ⟨n, Token.ofText?_ofInt hfits⟩), hbindings, hbindings'⟩

/-- **Without assignments, a variable and its value are interchangeable on the stack.**  Evaluations
in sessions that are alike stop at the same word for the same cause, if they stop, and leave
sessions that are alike, with the bindings as they were. -/
theorem evaluate_alike
    {s t : Session} {texts : List Text}
    (h : s.Alike t)
    (hassign : "=".toList ∉ texts) :
    let e := s.evaluate texts
    let e' := t.evaluate texts
    e'.halt? = e.halt? ∧
      e.session.Alike e'.session ∧
      e.session.bindings = s.bindings ∧ e'.session.bindings = t.bindings ∧
      ((∀ t ∈ texts, t.IsClassifiable) →
        e.halt? = none ∨ ∃ word spot cause, e.halt? = some (.stopped word spot cause)) := by
  intro e e'
  have hparallel : e.Parallel (AlikeOn s.bindings t.bindings) e' := by
    refine evaluate_parallel (Q := fun _ => True) ?_ (fun _ _ => trivial) ⟨h, rfl, rfl⟩
    intro s t w hmem hw halike _
    refine halike.step hw fun htoken => hassign ?_
    rw [htoken] at hw
    rw [Token.ofText?_eq_operator_iff.1 hw] at hmem
    exact hmem
  obtain ⟨⟨halike, hbindings, hbindings'⟩, -, hhalt⟩ := hparallel
  refine ⟨hhalt, halike, hbindings, hbindings', fun htexts => ?_⟩
  cases hend : e.halt? with
  | none => exact Or.inl rfl
  | some halt =>
      cases halt with
      | stopped word spot cause => exact Or.inr ⟨word, spot, cause, rfl⟩
      | unreadable f => exact absurd hend (h.valid.evaluate_ne_unreadable htexts f)

/-- A variable on one stack and its value, spelled at length, on the other, below a variable that is
unknown in both sessions. -/
theorem evaluate_alike_unknown_variable :
    let s : Session := (fresh.evaluate ["K".toList, "+7".toList, "=".toList, "A".toList,
      "7".toList, "=".toList, "A".toList, "C".toList, "5".toList]).session
    let t : Session := (fresh.evaluate ["A".toList, "007".toList, "=".toList, "K".toList,
      "7".toList, "=".toList, "007".toList, "C".toList, "5".toList]).session
    let texts : List Text := ["K".toList, "-".toList, "+".toList]
    s.Alike t ∧
      (t.evaluate texts).halt? = some (.stopped "+".toList 2 (.unknownVariable "C".toList)) ∧
      (t.evaluate texts).halt? = (s.evaluate texts).halt? ∧
      (s.evaluate texts).session.Alike (t.evaluate texts).session := by
  intro s t texts
  have hs : s = ⟨⟨["5".toList, "C".toList, "A".toList]⟩,
      ((∅ : Bindings).insert "K".toList "+7".toList).insert "A".toList "7".toList⟩ := by
    decide +kernel
  have ht : t = ⟨⟨["5".toList, "C".toList, "007".toList]⟩,
      ((∅ : Bindings).insert "A".toList "007".toList).insert "K".toList "7".toList⟩ := by
    decide +kernel
  have hvalues : s.bindings.SameValues t.bindings := by
    intro name
    rw [hs, ht]
    by_cases hA : name = "A".toList
    · subst hA
      decide +kernel
    · by_cases hK : name = "K".toList
      · subst hK
        decide +kernel
      · simp only [Bindings.find?_insert_of_ne _ _ hA, Bindings.find?_insert_of_ne _ _ hK]
  have hseven : Interchangeable s.bindings t.bindings "A".toList "007".toList :=
    Or.inr ⟨7, by decide +kernel, by decide +kernel⟩
  have halike : s.Alike t :=
    { valid := isValid_fresh.evaluate _
      valid' := isValid_fresh.evaluate _
      values := hvalues
      entries := by
        rw [hs, ht] at hseven ⊢
        exact .cons (Or.inl rfl) (.cons (Or.inl rfl) (.cons hseven .nil)) }
  have hassign : "=".toList ∉ texts := by
    decide
  obtain ⟨hhalt, hafter, -⟩ := evaluate_alike halike hassign
  exact ⟨halike, by decide +kernel, hhalt, hafter⟩

end Session

end ReversePolish
