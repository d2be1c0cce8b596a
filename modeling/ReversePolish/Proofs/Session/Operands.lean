import ReversePolish.Proofs.Session.Ending
import ReversePolish.Proofs.Session.Splitting

/-!
# Operands that are lost

An operator that cannot be evaluated puts its operands back, whatever its
reason is among those for which a word is reported.  A numeral that cannot be
read is not among them, and an operator that meets one leaves its operands off
the stack.

No valid session holds such a numeral, but restoring asks nothing of the texts
of a record.  An entry of the stack may be an overlong numeral, and a name may
be bound to any text at all.  An operator stumbles exactly over these: the
operands are back when an evaluation ends at an operator, unless it stumbled,
and then the two of them are lost and nothing else.
-/

namespace ReversePolish

namespace Text

theorem integer?_eq_error_iff
    {t : Text} {f : Numeral.Fault} :
    integer? t = .error f ↔ Numeral.IsOverlong t ∧ f = .tooLong (Numeral.digits t).length := by
  rw [← Token.ofText?_eq_error_iff, integer?, Outcome.bind_eq_error]
  constructor
  · rintro (h | ⟨token?, -, h⟩)
    · exact h
    · split at h <;> cases h
  · exact Or.inl

/-- What can be classified and is no integer as a word. -/
theorem integer?_eq_none_iff
    {t : Text} :
    integer? t = .ok none ↔ ¬ Numeral.IsOverlong t ∧ ¬ t.IsInteger := by
  constructor
  · intro h
    constructor
    · intro hoverlong
      rw [integer?_eq_error_iff.2 ⟨hoverlong, rfl⟩] at h
      cases h
    · rintro ⟨value, hvalue⟩
      rw [integer?_eq_some_iff.2 hvalue] at h
      cases h
  · rintro ⟨hoverlong, hinteger⟩
    cases h : integer? t with
    | error f => exact absurd (integer?_eq_error_iff.1 h).1 hoverlong
    | ok value? =>
        cases value? with
        | none => rfl
        | some value => exact absurd ⟨value, integer?_eq_some_iff.1 h⟩ hinteger

end Text

/-! ### Numerals that cannot be read -/

/-- An entry of the stack leads to a numeral that cannot be read: it is one itself, or it is no
integer and bound to one. -/
inductive Bindings.Unreadable (b : Bindings) (t : Text) : Numeral.Fault → Prop
  | entry (h : Numeral.IsOverlong t) : Unreadable b t (.tooLong (Numeral.digits t).length)
  | value {text : Text} {f : Numeral.Fault}
      (hentry : ¬ Numeral.IsOverlong t)
      (hinteger : ¬ t.IsInteger)
      (hbound : b.find? t = some text)
      (hread : Numeral.read text = .error f) : Unreadable b t f

theorem Bindings.resolve_eq_fault_iff
    {b : Bindings} {t : Text} {f : Numeral.Fault} :
    b.resolve t = .error (.fault f) ↔ b.Unreadable t f := by
  constructor
  · intro h
    rcases Outcome.bind_eq_error.1 h with hentry | ⟨value?, hentry, h⟩
    · obtain ⟨fault, hfault, heq⟩ := Outcome.mapError_eq_error.1 hentry
      cases heq
      obtain ⟨hoverlong, rfl⟩ := Text.integer?_eq_error_iff.1 hfault
      exact .entry hoverlong
    · cases value? with
      | some value => cases h
      | none =>
          obtain ⟨hoverlong, hinteger⟩ :=
            Text.integer?_eq_none_iff.1 (Outcome.mapError_eq_ok.1 hentry)
          simp only at h
          split at h
          · cases h
          · rename_i text hbound
            obtain ⟨fault, hread, heq⟩ := Outcome.mapError_eq_error.1 h
            cases heq
            exact .value hoverlong hinteger hbound hread
  · intro h
    cases h with
    | entry hoverlong =>
        rw [resolve, Text.integer?_eq_error_iff.2 ⟨hoverlong, rfl⟩]
        rfl
    | value hoverlong hinteger hbound hread =>
        rw [resolve, Text.integer?_eq_none_iff.2 ⟨hoverlong, hinteger⟩]
        simp only [Except.mapError, hbound, hread]
        rfl

/-- An operator meets a numeral that cannot be read.  An arithmetic operator reads its left operand
before the right one; an assignment only looks at both, the name before the value. -/
inductive Operator.Stumbles (b : Bindings) (left right : Text) : Operator → Numeral.Fault → Prop
  | left {operation : Arithmetic} {f : Numeral.Fault}
      (h : b.Unreadable left f) : Stumbles b left right (.arithmetic operation) f
  | right {operation : Arithmetic} {value : Int} {f : Numeral.Fault}
      (hleft : b.resolve left = .ok value)
      (h : b.Unreadable right f) : Stumbles b left right (.arithmetic operation) f
  | name (h : Numeral.IsOverlong right) :
      Stumbles b left right .assign (.tooLong (Numeral.digits right).length)
  | value
      (hname : ¬ Numeral.IsOverlong right)
      (hinteger : ¬ right.IsInteger)
      (h : Numeral.IsOverlong left) :
      Stumbles b left right .assign (.tooLong (Numeral.digits left).length)

namespace Operator

variable {b : Bindings} {left right : Text} {f : Numeral.Fault}

theorem effect_arithmetic_eq_fault_iff
    {operation : Arithmetic} :
    (arithmetic operation).effect b left right = .error (.fault f) ↔
      (arithmetic operation).Stumbles b left right f := by
  constructor
  · intro h
    rcases Outcome.bind_eq_error.1 h with hleft | ⟨leftValue, hleft, h⟩
    · exact .left (Bindings.resolve_eq_fault_iff.1 hleft)
    · rcases Outcome.bind_eq_error.1 h with hright | ⟨rightValue, -, h⟩
      · exact .right hleft (Bindings.resolve_eq_fault_iff.1 hright)
      · -- Once both are read, all that can go wrong has a cause.
        rcases Outcome.bind_eq_error.1 h with heval | ⟨result, -, h⟩
        · obtain ⟨cause, -, heq⟩ := Outcome.mapError_eq_error.1 heval
          cases heq
        · cases h
  · intro h
    cases h with
    | left h => exact Outcome.bind_eq_error.2 (Or.inl (Bindings.resolve_eq_fault_iff.2 h))
    | right hleft h =>
        refine Outcome.bind_eq_error.2 (Or.inr ⟨_, hleft, ?_⟩)
        exact Outcome.bind_eq_error.2 (Or.inl (Bindings.resolve_eq_fault_iff.2 h))

theorem effect_assign_eq_fault_iff :
    assign.effect b left right = .error (.fault f) ↔ assign.Stumbles b left right f := by
  constructor
  · intro h
    rcases Outcome.bind_eq_error.1 h with hname | ⟨nameValue?, hname, h⟩
    · obtain ⟨fault, hfault, heq⟩ := Outcome.mapError_eq_error.1 hname
      cases heq
      obtain ⟨hoverlong, rfl⟩ := Text.integer?_eq_error_iff.1 hfault
      exact .name hoverlong
    · cases nameValue? with
      | some value => cases h
      | none =>
          obtain ⟨hoverlong, hinteger⟩ :=
            Text.integer?_eq_none_iff.1 (Outcome.mapError_eq_ok.1 hname)
          rcases Outcome.bind_eq_error.1 h with hvalue | ⟨value?, -, h⟩
          · obtain ⟨fault, hfault, heq⟩ := Outcome.mapError_eq_error.1 hvalue
            cases heq
            obtain ⟨hvalueOverlong, rfl⟩ := Text.integer?_eq_error_iff.1 hfault
            exact .value hoverlong hinteger hvalueOverlong
          · cases value? <;> cases h
  · intro h
    cases h with
    | name h =>
        rw [effect, Text.integer?_eq_error_iff.2 ⟨h, rfl⟩]
        rfl
    | value hoverlong hinteger h =>
        rw [effect, Text.integer?_eq_none_iff.2 ⟨hoverlong, hinteger⟩,
          Text.integer?_eq_error_iff.2 ⟨h, rfl⟩]
        rfl

/-- **What an operator stumbles over.** -/
theorem effect_eq_fault_iff
    {op : Operator} :
    op.effect b left right = .error (.fault f) ↔ op.Stumbles b left right f := by
  cases op with
  | arithmetic operation => exact effect_arithmetic_eq_fault_iff
  | assign => exact effect_assign_eq_fault_iff

end Operator

/-! ### Operators that end an evaluation -/

namespace Session

variable {s : Session} {op : Operator} {f : Numeral.Fault}

/-- The two entries on top of the stack are operands over which the operator stumbles. -/
def StumblesAt (s : Session) (op : Operator) (f : Numeral.Fault) : Prop :=
  ∃ left right below, s.stack.entries = left :: right :: below ∧
    op.Stumbles s.bindings left right f

/-- An operator that stumbles takes its operands with it. -/
theorem evaluate_operator_of_stumblesAt
    (h : s.StumblesAt op f) :
    ∃ left right below, s.stack.entries = left :: right :: below ∧
      s.evaluate [[op.symbol]] = ⟨⟨⟨below⟩, s.bindings⟩, [], some (.unreadable f)⟩ := by
  obtain ⟨left, right, below, hentries, hstumbles⟩ := h
  obtain ⟨⟨entries⟩, bindings⟩ := s
  obtain rfl : entries = left :: right :: below := hentries
  refine ⟨left, right, below, rfl, ?_⟩
  have heffect := Operator.effect_eq_fault_iff.2 hstumbles
  have hstep : step ⟨⟨left :: right :: below⟩, bindings⟩ ⟨[op.symbol], 0, some (.operator op)⟩ =
      .error ⟨.unreadable f, ⟨⟨below⟩, bindings⟩⟩ := by
    simp only [step, operate, takeOperands, Stack.pop?, heffect]
  rw [evaluate_singleton _ (Token.ofText?_eq_operator_iff.2 rfl), run_cons_of_error [] hstep]

/-- Nothing else breaks an operator off. -/
theorem stumblesAt_of_unreadable
    (h : (s.evaluate [[op.symbol]]).halt? = some (.unreadable f)) :
    s.StumblesAt op f := by
  rw [evaluate_singleton _ (Token.ofText?_eq_operator_iff.2 rfl)] at h
  cases hstep : s.step ⟨[op.symbol], 0, some (.operator op)⟩ with
  | ok next =>
      rw [run_cons_of_ok [] hstep] at h
      cases h
  | error interruption =>
      rw [run_cons_of_error [] hstep] at h
      simp only [step, operate] at hstep
      split at hstep
      · cases hstep
        cases h
      · rename_i left right popped hoperands
        obtain ⟨hentries, hbindings⟩ := takeOperands_eq_ok hoperands
        split at hstep
        · cases hstep
        · cases hstep
          cases h
        · rename_i fault hfault
          cases hstep
          cases h
          rw [hbindings] at hfault
          exact ⟨left, right, _, hentries, Operator.effect_eq_fault_iff.1 hfault⟩

theorem StumblesAt.halt?_evaluate
    (h : s.StumblesAt op f) :
    (s.evaluate [[op.symbol]]).halt? = some (.unreadable f) := by
  obtain ⟨left, right, below, -, heval⟩ := evaluate_operator_of_stumblesAt h
  rw [heval]

/-- Operands that are lost are missing from the stack. -/
theorem StumblesAt.exists_operands
    (h : s.StumblesAt op f) :
    (s.evaluate [[op.symbol]]).session.bindings = s.bindings ∧
      ∃ left right, s.stack.entries =
        left :: right :: (s.evaluate [[op.symbol]]).session.stack.entries := by
  obtain ⟨left, right, below, hentries, heval⟩ := evaluate_operator_of_stumblesAt h
  rw [heval]
  exact ⟨rfl, left, right, hentries⟩

theorem StumblesAt.session_ne
    (h : s.StumblesAt op f) :
    (s.evaluate [[op.symbol]]).session ≠ s := by
  intro hsame
  obtain ⟨-, left, right, hentries⟩ := h.exists_operands
  rw [hsame] at hentries
  have hlength := congrArg List.length hentries
  rw [List.length_cons, List.length_cons] at hlength
  omega

/-- An operator that is reported puts its operands back. -/
theorem session_operator_of_stopped
    {word : Text} {spot : Nat} {cause : Cause}
    (h : (s.evaluate [[op.symbol]]).halt? = some (.stopped word spot cause)) :
    word = [op.symbol] ∧ spot = 0 ∧ (s.evaluate [[op.symbol]]).session = s := by
  obtain ⟨hword, -, hsession, -⟩ := evaluate_eq_stopped h
  obtain rfl : spot = 0 := Nat.lt_one_iff.1 (spot_lt_length h)
  exact ⟨(Option.some.inj hword).symm, rfl, hsession⟩

/-- An operator that ends its evaluation is reported, or it stumbles. -/
theorem operator_ends
    {halt : Halt}
    (h : (s.evaluate [[op.symbol]]).halt? = some halt) :
    (∃ cause, halt = .stopped [op.symbol] 0 cause ∧ (s.evaluate [[op.symbol]]).session = s ∧
        ∀ f, ¬ s.StumblesAt op f) ∨
      ∃ f, halt = .unreadable f ∧ s.StumblesAt op f ∧ ∀ f', s.StumblesAt op f' → f' = f := by
  cases halt with
  | stopped word spot cause =>
      obtain ⟨rfl, rfl, hsession⟩ := session_operator_of_stopped h
      refine Or.inl ⟨cause, rfl, hsession, fun f hstumbles => ?_⟩
      rw [hstumbles.halt?_evaluate] at h
      cases h
  | unreadable f =>
      refine Or.inr ⟨f, rfl, stumblesAt_of_unreadable h, fun f' hstumbles => ?_⟩
      rw [hstumbles.halt?_evaluate] at h
      cases h
      rfl

/-! ### Operators in an expression -/

theorem isClassifiable_of_done
    {texts : List Text}
    (h : (s.evaluate texts).halt? = none) :
    ∀ t ∈ texts, t.IsClassifiable :=
  Word.exists_classify_iff.1 (exists_classify_of_halt? s texts (by simp [h]))

/-- An expression in which the words before an operator are done and the operator is not ends as the
operator does. -/
theorem evaluate_of_operator
    {before after : List Text} {halt : Halt}
    (hbefore : (s.evaluate before).halt? = none)
    (hafter : ∀ t ∈ after, t.IsClassifiable)
    (hoperator : ((s.evaluate before).session.evaluate [[op.symbol]]).halt? = some halt) :
    s.evaluate (before ++ [op.symbol] :: after) =
      (((s.evaluate before).session.evaluate [[op.symbol]]).shift before.length).behind
        (s.evaluate before).steps := by
  have hword := isClassifiable_operator op
  have hrest : ∀ t ∈ [[op.symbol]] ++ after, Text.IsClassifiable t :=
    List.forall_mem_append.2 ⟨hword, hafter⟩
  have hpieces := evaluate_append (s.evaluate before).session hword hafter
  rw [Evaluation.andThen_of_halted _ hoperator] at hpieces
  have hwhole := evaluate_append s (isClassifiable_of_done hbefore) hrest
  rw [Evaluation.andThen_of_done _ hbefore, hpieces] at hwhole
  exact hwhole

/-- **When an operator ends an evaluation, its operands are back unless it stumbled over them.**  All
that an operator can meet besides is reported at its word; one that stumbled is broken off, and its
two operands are gone. -/
theorem operands_kept_iff
    (s : Session) (op : Operator) {before after : List Text}
    (hbefore : (s.evaluate before).halt? = none)
    (hends : (s.evaluate (before ++ [[op.symbol]])).halt? ≠ none)
    (hafter : ∀ t ∈ after, t.IsClassifiable) :
    let found := (s.evaluate before).session
    let ended := s.evaluate (before ++ [op.symbol] :: after)
    (ended.session = found ↔ ∀ f, ¬ found.StumblesAt op f) ∧
      ((∃ cause, ended.halt? = some (.stopped [op.symbol] before.length cause)) ↔
        ∀ f, ¬ found.StumblesAt op f) ∧
      (∀ f, ended.halt? = some (.unreadable f) ↔ found.StumblesAt op f) ∧
      ∀ f, found.StumblesAt op f →
        ended.session.bindings = found.bindings ∧
          ∃ left right, found.stack.entries = left :: right :: ended.session.stack.entries := by
  intro found ended
  have hoperator : (found.evaluate [[op.symbol]]).halt? ≠ none := by
    rw [halt?_append_of_leads (isClassifiable_of_done hbefore) (isClassifiable_operator op)
      ⟨hbefore, rfl⟩] at hends
    exact fun hnone => hends (congrArg (Option.map _) hnone)
  obtain ⟨halt, hhalt⟩ := Option.ne_none_iff_exists'.1 hoperator
  have hended := evaluate_of_operator hbefore hafter hhalt
  have hsession : ended.session = (found.evaluate [[op.symbol]]).session := by
    simp only [ended, hended]
    rfl
  have hendedHalt : ended.halt? = some (halt.shift before.length) := by
    simp only [ended, hended, Evaluation.halt?_behind, Evaluation.halt?_shift]
    rw [hhalt, Option.map_some]
  rw [hsession, hendedHalt]
  refine ⟨?_, ?_, ?_, fun f hstumbles => hstumbles.exists_operands⟩
  · refine ⟨fun hsame f hstumbles => hstumbles.session_ne hsame, fun hno => ?_⟩
    rcases operator_ends hhalt with ⟨cause, -, hback, -⟩ | ⟨f, -, hstumbles, -⟩
    · exact hback
    · exact absurd hstumbles (hno f)
  · rcases operator_ends hhalt with ⟨cause, rfl, -, hno⟩ | ⟨f, rfl, hstumbles, -⟩
    · exact ⟨fun _ => hno, fun _ => ⟨cause, rfl⟩⟩
    · refine ⟨fun ⟨cause, h⟩ => (by cases h), fun hno => absurd hstumbles (hno f)⟩
  · intro f
    rcases operator_ends hhalt with ⟨cause, rfl, -, hno⟩ | ⟨f', rfl, hstumbles, hunique⟩
    · exact ⟨fun h => (by cases h), fun h => absurd h (hno f)⟩
    · constructor
      · intro h
        cases h
        exact hstumbles
      · intro h
        rw [hunique f h]
        rfl

/-- A name that is bound to no integer at all: the product loses it and the factor above it, while
the sum with a name that is not bound puts both back. -/
theorem operands_kept_iff_bound_word :
    let s := ofRecord ⟨["5".toList], [("A".toList, " 12x".toList)]⟩
    let product := s.evaluate ["A".toList, "3".toList, "*".toList, "1".toList]
    let sum := s.evaluate ["3".toList, "B".toList, "+".toList, "1".toList]
    product.halt? = some (.unreadable (.malformed " 12x".toList)) ∧
      product.session ≠ (s.evaluate ["A".toList, "3".toList]).session ∧
      sum.halt? = some (.stopped "+".toList 2 (.unknownVariable "B".toList)) ∧
      sum.session = (s.evaluate ["3".toList, "B".toList]).session := by
  intro s product sum
  have hproduct : product.halt? = some (.unreadable (.malformed " 12x".toList)) := by
    decide +kernel
  have hsum : sum.halt? = some (.stopped "+".toList 2 (.unknownVariable "B".toList)) := by
    decide +kernel
  have hone : ∀ t ∈ ["1".toList], Text.IsClassifiable t :=
    Word.exists_classify_iff.1 ⟨[⟨"1".toList, 0, some (.integer 1)⟩], by decide +kernel⟩
  have hfactors : (s.evaluate ["A".toList, "3".toList]).halt? = none := by
    decide +kernel
  have hsummands : (s.evaluate ["3".toList, "B".toList]).halt? = none := by
    decide +kernel
  obtain ⟨hproductKept, -, hproductUnreadable, -⟩ :=
    operands_kept_iff s (.arithmetic .multiply) hfactors (by decide +kernel) hone
  obtain ⟨hsumKept, hsumStopped, -, -⟩ :=
    operands_kept_iff s (.arithmetic .add) hsummands (by decide +kernel) hone
  refine ⟨hproduct, fun hsame => ?_, hsum, hsumKept.2 (hsumStopped.1 ⟨_, hsum⟩)⟩
  exact hproductKept.1 hsame _ ((hproductUnreadable _).1 hproduct)

/-- A sum ends its evaluation, and what it was to add is gone from the stack. -/
theorem operands_lost_at_bound_word :
    let s := ofRecord ⟨["5".toList], [("A".toList, "x".toList)]⟩
    let found := (s.evaluate ["A".toList]).session
    let ended := s.evaluate ["A".toList, "+".toList]
    (s.evaluate ["A".toList]).halt? = none ∧
      ended.halt? = some (.unreadable (.malformed "x".toList)) ∧
      found.stack.toList = ["5".toList, "A".toList] ∧ ended.session.stack.toList = [] ∧
      ended.session ≠ found := by
  decide +kernel

end Session
end ReversePolish
