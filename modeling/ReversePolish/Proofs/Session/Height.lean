import ReversePolish.Proofs.Session.Cause
import ReversePolish.Proofs.Session.Splitting

/-!
# The height of the stack

How high the stack is after words that are done can be counted on the words:
an integer or a variable adds an entry, an arithmetic operator takes one away
and an assignment two.  Values, bindings and spellings do not matter.  So
counting also tells where an operator misses an operand: at the first operator
before which the count is below two, if the words before it are done.
-/

namespace ReversePolish

namespace Token

/-- Operators that put a result on the stack. -/
def isArithmetic : Token → Bool
  | operator (.arithmetic _) => true
  | _ => false

/-- The operator that binds. -/
def isAssignment : Token → Bool
  | operator .assign => true
  | _ => false

end Token

namespace Text

/-- Whether a text has a meaning as a word, one that passes the test. -/
def means (accepts : Token → Bool) (t : Text) : Bool :=
  match Token.ofText? t with
  | .ok (some token) => accepts token
  | _ => false

theorem means_eq
    {t : Text} {token : Token} (accepts : Token → Bool)
    (h : Token.ofText? t = .ok (some token)) :
    t.means accepts = accepts token := by
  simp only [means, h]

end Text

/-- The height to which words take a stack of the given height, counted on the words alone. -/
def heightAfter (height : Int) (texts : List Text) : Int :=
  height + texts.countP (Text.means Token.isOperand)
    - texts.countP (Text.means Token.isArithmetic)
    - 2 * texts.countP (Text.means Token.isAssignment)

@[simp] theorem heightAfter_nil
    (height : Int) :
    heightAfter height [] = height := by
  simp [heightAfter]

theorem heightAfter_cons
    (height : Int) (t : Text) (rest : List Text) :
    heightAfter height (t :: rest) = heightAfter (heightAfter height [t]) rest := by
  simp only [heightAfter, List.countP_cons, List.countP_nil]
  omega

section Words

variable {t : Text} (height : Int)

theorem heightAfter_operand
    {token : Token}
    (h : Token.ofText? t = .ok (some token))
    (hoperand : token.isOperand = true) :
    heightAfter height [t] = height + 1 := by
  cases token with
  | operator op => cases hoperand
  | _ =>
      simp [heightAfter, Text.means_eq _ h, Token.isOperand, Token.isArithmetic,
        Token.isAssignment]

theorem heightAfter_arithmetic
    {operation : Arithmetic}
    (h : Token.ofText? t = .ok (some (.operator (.arithmetic operation)))) :
    heightAfter height [t] = height - 1 := by
  simp [heightAfter, Text.means_eq _ h, Token.isOperand, Token.isArithmetic, Token.isAssignment]

theorem heightAfter_assignment
    (h : Token.ofText? t = .ok (some (.operator .assign))) :
    heightAfter height [t] = height - 2 := by
  simp [heightAfter, Text.means_eq _ h, Token.isOperand, Token.isArithmetic, Token.isAssignment]

end Words

namespace Session

variable {s : Session}

@[simp] theorem size_push
    (s : Session) (entry : Text) :
    (s.push entry).stack.size = s.stack.size + 1 := rfl

@[simp] theorem size_bind
    (s : Session) (name value : Text) :
    (s.perform (.bind name value)).stack.size = s.stack.size := rfl

theorem size_of_takeOperands
    {popped : Session} {left right : Text}
    (h : s.takeOperands = .ok (left, right, popped)) :
    s.stack.size = popped.stack.size + 2 := by
  rw [Stack.size, (takeOperands_eq_ok h).1]
  rfl

/-- A word that is done changes the height as it is counted. -/
theorem size_of_step
    {next : Session} {w : Word}
    (hw : Token.ofText? w.text = .ok w.token?)
    (h : s.step w = .ok next) :
    (next.stack.size : Int) = heightAfter s.stack.size [w.text] := by
  rcases step_eq_ok h with
    ⟨token, htoken, hoperand, rfl⟩ |
      ⟨op, left, right, popped, effect, htoken, hoperands, heffect, rfl⟩
  · rw [htoken] at hw
    rw [heightAfter_operand _ hw hoperand, size_push, Int.natCast_succ]
  · rw [htoken] at hw
    have hsize := size_of_takeOperands hoperands
    cases op with
    | arithmetic operation =>
        obtain ⟨n, -, rfl⟩ := Operator.effect_arithmetic_eq_ok heffect
        rw [heightAfter_arithmetic _ hw, perform, size_push]
        omega
    | assign =>
        obtain ⟨rfl, -, -⟩ := Operator.effect_assign_eq_ok heffect
        rw [heightAfter_assignment _ hw, size_bind]
        omega

theorem size_of_run
    {words : List Word}
    (hwords : ∀ w ∈ words, Token.ofText? w.text = .ok w.token?)
    (h : (s.run words).halt? = none) :
    ((s.run words).session.stack.size : Int) =
      heightAfter s.stack.size (words.map Word.text) := by
  induction words generalizing s with
  | nil => simp
  | cons w rest ih =>
      obtain ⟨hw, hrest⟩ := List.forall_mem_cons.1 hwords
      cases hstep : s.step w with
      | error interruption =>
          rw [run_cons_of_error rest hstep] at h
          cases h
      | ok next =>
          rw [run_cons_of_ok rest hstep] at h ⊢
          rw [List.map_cons, heightAfter_cons, ← size_of_step hw hstep]
          exact ih hrest h

/-- Words that are done take the stack to the height that is counted. -/
theorem size_of_evaluate
    {texts : List Text}
    (h : (s.evaluate texts).halt? = none) :
    ((s.evaluate texts).session.stack.size : Int) = heightAfter s.stack.size texts := by
  obtain ⟨words, hwords⟩ := exists_classify_of_halt? s texts (by simp [h])
  rw [evaluate_of_classify s hwords] at h ⊢
  rw [size_of_run (fun w hw => Word.token?_of_classifyFrom hwords hw) h,
    Word.map_text_of_classifyFrom hwords]

/-- A word by itself misses an operand exactly if it is an operator and the stack is too low. -/
theorem halt?_singleton_eq_missingOperand_iff
    {t : Text}
    (ht : t.IsClassifiable) :
    (s.evaluate [t]).halt? = some (.stopped t 0 .missingOperand) ↔
      (∃ op, Token.ofText? t = .ok (some (.operator op))) ∧ s.stack.size < 2 := by
  obtain ⟨token?, htoken⟩ := ht
  have hmissing := step_eq_missingOperand_iff (s := s) (w := ⟨t, 0, token?⟩)
  have hoperator : (∃ op, token? = some (.operator op)) ↔
      ∃ op, Token.ofText? t = .ok (some (.operator op)) := by
    simp [htoken]
  rw [evaluate_singleton s htoken, ← hoperator, Stack.size, ← hmissing]
  constructor
  · intro h
    cases hstep : s.step ⟨t, 0, token?⟩ with
    | ok next =>
        rw [run_cons_of_ok [] hstep] at h
        cases h
    | error interruption =>
        obtain ⟨halt, halted⟩ := interruption
        rw [run_cons_of_error [] hstep] at h
        cases h
        exact ⟨_, _, _, rfl⟩
  · rintro ⟨word, spot, halted, hstep⟩
    obtain ⟨rfl, rfl, -⟩ := step_eq_stopped hstep
    rw [run_cons_of_error [] hstep]

/-- **Counting decides where an operator misses an operand.**  Words that are done leave the stack
as high as they are counted to; and an expression stops at an operator for want of operands exactly
if the words before it are done and count to less than two, which is then the height that is
left. -/
theorem missingOperand_iff_height
    (s : Session) {texts : List Text}
    (htexts : ∀ t ∈ texts, t.IsClassifiable) :
    (∀ n, (s.evaluate (texts.take n)).halt? = none →
        ((s.evaluate (texts.take n)).session.stack.size : Int) =
          heightAfter s.stack.size (texts.take n)) ∧
      ∀ spot,
        ((∃ word, (s.evaluate texts).halt? = some (.stopped word spot .missingOperand)) ↔
          (s.evaluate (texts.take spot)).halt? = none ∧
            (∃ word op, texts[spot]? = some word ∧
              Token.ofText? word = .ok (some (.operator op))) ∧
            heightAfter s.stack.size (texts.take spot) < 2) ∧
        ∀ word, (s.evaluate texts).halt? = some (.stopped word spot .missingOperand) →
          ((s.evaluate texts).session.stack.size : Int) =
            heightAfter s.stack.size (texts.take spot) := by
  refine ⟨fun n => size_of_evaluate, fun spot => ⟨?_, ?_⟩⟩
  · constructor
    · rintro ⟨word, h⟩
      obtain ⟨hword, hbefore, hsingle⟩ := (halt?_eq_stopped_iff htexts).1 h
      obtain ⟨⟨op, hop⟩, hlow⟩ :=
        (halt?_singleton_eq_missingOperand_iff (htexts word (List.mem_of_getElem? hword))).1 hsingle
      refine ⟨hbefore, ⟨word, op, hword, hop⟩, ?_⟩
      rw [← size_of_evaluate hbefore]
      omega
    · rintro ⟨hbefore, ⟨word, op, hword, hop⟩, hlow⟩
      rw [← size_of_evaluate hbefore] at hlow
      refine ⟨word, (halt?_eq_stopped_iff htexts).2 ⟨hword, hbefore, ?_⟩⟩
      exact (halt?_singleton_eq_missingOperand_iff ⟨_, hop⟩).2 ⟨⟨op, hop⟩, by omega⟩
  · intro word h
    obtain ⟨-, hbefore, hsession, -⟩ := evaluate_eq_stopped h
    rw [hsession]
    exact size_of_evaluate hbefore

/-- An entry that no word could put on the stack counts like any other: a difference uses it up, and
the product behind it finds one factor. -/
theorem missingOperand_iff_height_unchecked_entry :
    let s := ofRecord ⟨["x y".toList], [("x y".toList, "9".toList)]⟩
    let texts : List Text :=
      ["A".toList, "+5".toList, "=".toList, "2".toList, "-".toList, "*".toList]
    (s.evaluate (texts.take 5)).halt? = none ∧ heightAfter s.stack.size (texts.take 5) = 1 ∧
      (∃ word, (s.evaluate texts).halt? = some (.stopped word 5 .missingOperand)) ∧
      ((s.evaluate texts).session.stack.size : Int) = 1 := by
  intro s texts
  have htexts : ∀ t ∈ texts, t.IsClassifiable :=
    Word.exists_classify_iff.1 ⟨[⟨"A".toList, 0, some (.name 'A')⟩,
      ⟨"+5".toList, 1, some (.integer 5)⟩, ⟨"=".toList, 2, some (.operator .assign)⟩,
      ⟨"2".toList, 3, some (.integer 2)⟩,
      ⟨"-".toList, 4, some (.operator (.arithmetic .subtract))⟩,
      ⟨"*".toList, 5, some (.operator (.arithmetic .multiply))⟩], by decide +kernel⟩
  have hdone : (s.evaluate (texts.take 5)).halt? = none := by
    decide +kernel
  have hheight : heightAfter s.stack.size (texts.take 5) = 1 := by
    decide +kernel
  obtain ⟨-, hmissing⟩ := missingOperand_iff_height s htexts
  obtain ⟨hiff, hleft⟩ := hmissing 5
  obtain ⟨word, hstopped⟩ := hiff.2
    ⟨hdone, ⟨['*'], .arithmetic .multiply, rfl, Token.ofText?_eq_operator_iff.2 rfl⟩,
      by rw [hheight]; decide⟩
  exact ⟨hdone, hheight, ⟨word, hstopped⟩, (hleft word hstopped).trans hheight⟩

end Session

end ReversePolish
