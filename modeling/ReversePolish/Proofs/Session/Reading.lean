import ReversePolish.Proofs.Session.Validity

/-!
# Reading operands

An entry of the stack stands for an integer: an integer as a word for its own
value, a variable for the value of what it is bound to.  Where all bound values
are integers, `resolve` finds this integer, and all that can go wrong is that a
variable is not bound.  So it is in a valid session, whose evaluation is then
never broken off by a numeral that cannot be read.
-/

namespace ReversePolish

/-- The integer that a text is as a word. -/
def Text.number? (t : Text) : Option Int :=
  (Text.integer? t).toOption.join

/-- The integer for which a text stands: its own, or that of the text to which it is bound. -/
def Bindings.number? (b : Bindings) (t : Text) : Option Int :=
  (Text.number? t).or ((b.find? t).bind Text.number?)

/-- Every value that is bound is an integer as a word. -/
def Bindings.HasIntegers (b : Bindings) : Prop :=
  ∀ pair ∈ b.toList, pair.2.IsInteger

namespace Text

theorem integer?_of_isName
    {t : Text}
    (h : t.IsName) :
    integer? t = .ok none := by
  obtain ⟨letter, hletter⟩ := h
  rw [integer?, hletter]
  rfl

theorem IsOperand.exists_integer?
    {t : Text}
    (h : t.IsOperand) :
    ∃ value?, integer? t = .ok value? := by
  rcases h with ⟨value, hvalue⟩ | hname
  · exact ⟨some value, integer?_eq_some_iff.2 hvalue⟩
  · exact ⟨none, integer?_of_isName hname⟩

theorem number?_eq_some_iff
    {t : Text} {value : Int} :
    number? t = some value ↔ Token.ofText? t = .ok (some (.integer value)) := by
  rw [← integer?_eq_some_iff, number?]
  cases integer? t with
  | error f => simp [Except.toOption]
  | ok value? => simp [Except.toOption]

theorem number?_of_isName
    {t : Text}
    (h : t.IsName) :
    number? t = none := by
  rw [number?, integer?_of_isName h]
  rfl

end Text

namespace Bindings

theorem resolve_of_integer
    {t : Text} {value : Int} (b : Bindings)
    (h : Token.ofText? t = .ok (some (.integer value))) :
    b.resolve t = .ok value := by
  rw [resolve, Text.integer?_eq_some_iff.2 h]
  rfl

theorem resolve_of_unbound
    {b : Bindings} {t : Text}
    (h : t.IsName)
    (hfind : b.find? t = none) :
    b.resolve t = .error (.cause (.unknownVariable t)) := by
  rw [resolve, Text.integer?_of_isName h]
  simp only [Except.mapError, hfind]
  rfl

theorem resolve_of_bound
    {b : Bindings} {t text : Text} {value : Int}
    (h : t.IsName)
    (hfind : b.find? t = some text)
    (hvalue : Token.ofText? text = .ok (some (.integer value))) :
    b.resolve t = .ok value := by
  rw [resolve, Text.integer?_of_isName h]
  simp only [Except.mapError, hfind, (Text.read_of_ofText? hvalue).1]
  rfl

/-- What an operand is resolved to is the integer for which it stands. -/
theorem HasIntegers.resolve
    {b : Bindings} {t : Text}
    (h : b.HasIntegers)
    (ht : t.IsOperand) :
    b.resolve t =
      match b.number? t with
      | some value => .ok value
      | none => .error (.cause (.unknownVariable t)) := by
  rcases ht with ⟨value, hvalue⟩ | hname
  · rw [resolve_of_integer b hvalue, number?, Text.number?_eq_some_iff.2 hvalue]
    rfl
  · rw [number?, Text.number?_of_isName hname]
    cases hfind : b.find? t with
    | none => exact resolve_of_unbound hname hfind
    | some text =>
        obtain ⟨value, hvalue⟩ := h (t, text) (mem_of_find?_eq_some hfind)
        rw [resolve_of_bound hname hfind hvalue, Option.bind_some,
          Text.number?_eq_some_iff.2 hvalue]
        rfl

end Bindings

namespace Session

theorem IsValid.isInteger_of_find?
    {s : Session} {name text : Text}
    (h : s.IsValid)
    (hfind : s.bindings.find? name = some text) :
    text.IsInteger :=
  h.values (name, text) (Bindings.mem_of_find?_eq_some hfind)

theorem IsValid.hasIntegers
    {s : Session}
    (h : s.IsValid) :
    s.bindings.HasIntegers :=
  h.values

/-- An operand stands for an integer, or it is a variable that is not bound. -/
theorem IsValid.resolve
    {s : Session} {t : Text}
    (h : s.IsValid)
    (ht : t.IsOperand) :
    (∃ value, s.bindings.resolve t = .ok value) ∨
      s.bindings.resolve t = .error (.cause (.unknownVariable t)) := by
  rw [h.hasIntegers.resolve ht]
  split
  · exact Or.inl ⟨_, rfl⟩
  · exact Or.inr rfl

theorem IsValid.resolve_ne_fault
    {s : Session} {t : Text}
    (h : s.IsValid)
    (ht : t.IsOperand)
    (f : Numeral.Fault) :
    s.bindings.resolve t ≠ .error (.fault f) := by
  intro hfault
  rcases h.resolve ht with ⟨value, hvalue⟩ | hcause
  · rw [hvalue] at hfault
    cases hfault
  · rw [hcause] at hfault
    cases hfault

theorem IsValid.effect_ne_fault
    {s : Session} {left right : Text}
    (h : s.IsValid)
    (hleft : left.IsOperand)
    (hright : right.IsOperand)
    (op : Operator) (f : Numeral.Fault) :
    op.effect s.bindings left right ≠ .error (.fault f) := by
  intro hfault
  cases op with
  | arithmetic operation =>
      rcases Outcome.bind_eq_error.1 hfault with hfault | ⟨_, -, hfault⟩
      · exact h.resolve_ne_fault hleft f hfault
      · rcases Outcome.bind_eq_error.1 hfault with hfault | ⟨_, -, hfault⟩
        · exact h.resolve_ne_fault hright f hfault
        · rcases Outcome.bind_eq_error.1 hfault with hfault | ⟨_, -, hfault⟩
          · obtain ⟨c, -, hc⟩ := Outcome.mapError_eq_error.1 hfault
            cases hc
          · cases hfault
  | assign =>
      obtain ⟨leftValue?, hleft⟩ := hleft.exists_integer?
      obtain ⟨rightValue?, hright⟩ := hright.exists_integer?
      rw [Operator.effect, hleft, hright] at hfault
      cases rightValue? <;> cases leftValue? <;> cases hfault

/-- In a valid session no word meets a numeral that cannot be read. -/
theorem IsValid.step_ne_unreadable
    {s halted : Session} {w : Word} {f : Numeral.Fault}
    (h : s.IsValid) :
    s.step w ≠ .error ⟨.unreadable f, halted⟩ := by
  intro hstep
  rw [Session.step] at hstep
  split at hstep
  · cases hstep
  · cases hstep
  · cases hstep
  · rename_i op htoken
    rw [operate] at hstep
    split at hstep
    · cases hstep
    · rename_i left right popped hoperands
      obtain ⟨hleft, hright, hpopped⟩ := h.of_takeOperands hoperands
      split at hstep
      · cases hstep
      · cases hstep
      · rename_i fault hfault
        exact hpopped.effect_ne_fault hleft hright op fault hfault

theorem IsValid.run_ne_unreadable
    {s : Session} {words : List Word}
    (h : s.IsValid)
    (hwords : ∀ w ∈ words, Token.ofText? w.text = .ok w.token?)
    (f : Numeral.Fault) :
    (s.run words).halt? ≠ some (.unreadable f) := by
  induction words generalizing s with
  | nil => exact fun h => (by cases h)
  | cons w rest ih =>
      obtain ⟨hw, hrest⟩ := List.forall_mem_cons.1 hwords
      cases hstep : s.step w with
      | error interruption =>
          obtain ⟨halt, halted⟩ := interruption
          rw [run_cons_of_error rest hstep]
          intro hhalt
          cases hhalt
          exact h.step_ne_unreadable hstep
      | ok next =>
          rw [run_cons_of_ok rest hstep]
          exact ih (h.step hw hstep) hrest

/-- Evaluating a valid session is not broken off. -/
theorem IsValid.evaluate_ne_unreadable
    {s : Session} {texts : List Text}
    (h : s.IsValid)
    (htexts : ∀ t ∈ texts, t.IsClassifiable)
    (f : Numeral.Fault) :
    (s.evaluate texts).halt? ≠ some (.unreadable f) := by
  obtain ⟨words, hwords⟩ := Word.exists_classify_iff.2 htexts
  rw [Session.evaluate, hwords]
  exact h.run_ne_unreadable (fun w hw => Word.token?_of_classifyFrom hwords hw) f

/-- An evaluation that is broken off has not begun: some word could not be classified. -/
theorem IsValid.evaluate_of_unreadable
    {s : Session} {texts : List Text} {f : Numeral.Fault}
    (h : s.IsValid)
    (hhalt : (s.evaluate texts).halt? = some (.unreadable f)) :
    s.evaluate texts = ⟨s, [], some (.unreadable f)⟩ := by
  cases hwords : Word.classify texts with
  | ok words =>
      have htexts := Word.exists_classify_iff.1 ⟨words, hwords⟩
      exact absurd hhalt (h.evaluate_ne_unreadable htexts f)
  | error fault =>
      have heval : s.evaluate texts = ⟨s, [], some (.unreadable fault)⟩ := by
        rw [Session.evaluate, hwords]
      rw [heval] at hhalt
      exact heval.trans (congrArg (Evaluation.mk s []) hhalt)

end Session

end ReversePolish
