import ReversePolish.Proofs.Machine.Denotation
import ReversePolish.Proofs.Session.Atomicity

/-!
# Evaluating as a run of the exact machine

Evaluating an expression in a session is running the machine that the session
denotes.  Word by word the two do the same: either both go on, and the next
session denotes the next machine, or both stop, and the cause says what the
trouble says.
-/

namespace ReversePolish

open Machine (Item Letter Number Trouble Instruction)

/-! ### Operands and results -/

/-- An entry of the stack stands for what its item stands for. -/
theorem Bindings.resolve_agrees
    {s : Session} {m : Machine} {t : Text} {item : Item}
    (h : s.Denotes m)
    (ht : Item.ofText? t = some item) :
    Outcome.Agree (fun n (number : Number) => n = number.val) Obstacle.Denotes
      (s.bindings.resolve t) (m.resolve item) := by
  cases item with
  | integer n =>
      rw [resolve_of_integer s.bindings (Item.ofText?_eq_some_iff.1 ht)]
      exact .ok rfl
  | letter c =>
      have hname : t.IsName := ⟨c.val, Item.ofText?_eq_some_iff.1 ht⟩
      have hvalues := h.values c
      rw [← Item.eq_of_ofText?_eq_letter ht] at hvalues
      cases hvalue : m.values c with
      | none =>
          rw [hvalue] at hvalues
          have hfind : s.bindings.find? t = none := Option.map_eq_none_iff.1 hvalues
          rw [resolve_of_unbound hname hfind, Machine.resolve, hvalue]
          exact .error ⟨_, rfl, .unknownVariable ht⟩
      | some n =>
          rw [hvalue] at hvalues
          obtain ⟨text, hfind, htext⟩ := Option.map_eq_some_iff.1 hvalues
          rw [resolve_of_bound hname hfind (Item.ofText?_eq_some_iff.1 htext),
            Machine.resolve, hvalue]
          exact .ok rfl

theorem Arithmetic.eval_agrees
    (operation : Arithmetic) (left right : Number) :
    Outcome.Agree (fun n (number : Number) => n = number.val) Obstacle.Denotes
      ((operation.eval left.val right.val).mapError .cause)
      (Machine.compute operation left right) := by
  rw [eval_eq, Machine.compute]
  cases operation.exactResult? left.val right.val with
  | none => exact .error ⟨_, rfl, .divisionByZero⟩
  | some n =>
      by_cases hfits : Numeral.Fits n
      · simp only [if_pos hfits, dif_pos hfits]
        exact .ok rfl
      · simp only [if_neg hfits, dif_neg hfits]
        exact .error ⟨_, rfl, .overflow⟩

/-- The word stops an evaluation where the session stands, for what the trouble says. -/
def Interruption.Denotes (s : Session) (w : Word) (i : Interruption) (trouble : Trouble) : Prop :=
  ∃ cause : Cause, i = ⟨.stopped w.text w.spot cause, s⟩ ∧ cause.Denotes trouble

namespace Session

variable {s : Session} {m : Machine}

/-! ### One word -/

theorem Denotes.push
    {t : Text} {item : Item}
    (h : s.Denotes m)
    (ht : Item.ofText? t = some item) :
    (s.push t).Denotes (m.push item) where
  stack := by
    rw [Machine.push, List.map_cons, ← h.stack, ← ht]
    rfl
  values := h.values

theorem Denotes.insert
    {name value : Text} {c : Letter} {n : Number}
    (h : s.Denotes m)
    (hname : Item.ofText? name = some (.letter c))
    (hvalue : Item.ofText? value = some (.integer n)) :
    Denotes { s with bindings := s.bindings.insert name value } (m.assign c n) where
  stack := h.stack
  values other := by
    obtain rfl := Item.eq_of_ofText?_eq_letter hname
    by_cases hother : other = c
    · subst hother
      rw [Bindings.find?_insert_self, Machine.values_assign_self, Option.map_some, hvalue]
      rfl
    · have hne : [other.val] ≠ [c.val] := fun heq =>
        hother (Subtype.ext (List.singleton_inj.1 heq))
      rw [Bindings.find?_insert_of_ne _ _ hne, Machine.values_assign_of_ne m n hother]
      exact h.values other

/-- An operator does to the session what it does to the machine. -/
theorem Denotes.combine
    {left right : Text} {leftItem rightItem : Item}
    (h : s.Denotes m)
    (hleft : Item.ofText? left = some leftItem)
    (hright : Item.ofText? right = some rightItem)
    (op : Operator) :
    Outcome.Agree (fun effect next => (s.perform effect).Denotes next) Obstacle.Denotes
      (op.effect s.bindings left right) (m.combine op leftItem rightItem) := by
  cases op with
  | arithmetic operation =>
      refine (Bindings.resolve_agrees h hleft).bind ?_
      rintro - leftNumber rfl
      refine (Bindings.resolve_agrees h hright).bind ?_
      rintro - rightNumber rfl
      refine (Arithmetic.eval_agrees operation leftNumber rightNumber).bind ?_
      rintro - result rfl
      have hresult : Item.ofText? (Numeral.ofInt result.val) = some (.integer result) :=
        Item.ofText?_eq_some_iff.2 (Token.ofText?_ofInt result.property)
      exact .ok (h.push hresult)
  | assign =>
      cases rightItem with
      | integer n =>
          have hinteger := Text.integer?_eq_some_iff.2 (Item.ofText?_eq_some_iff.1 hright)
          rw [Operator.effect, hinteger]
          exact .error ⟨_, rfl, .invalidTarget hright⟩
      | letter c =>
          have hname := Text.integer?_of_isName ⟨c.val, Item.ofText?_eq_some_iff.1 hright⟩
          cases leftItem with
          | integer n =>
              have hinteger := Text.integer?_eq_some_iff.2 (Item.ofText?_eq_some_iff.1 hleft)
              rw [Operator.effect, hname, hinteger]
              exact .ok (h.insert hright hleft)
          | letter c' =>
              have hletter :=
                Text.integer?_of_isName ⟨c'.val, Item.ofText?_eq_some_iff.1 hleft⟩
              rw [Operator.effect, hname, hletter]
              exact .error ⟨_, rfl, .invalidValue hleft⟩

/-- Two operands on the stack are the two top items of the machine. -/
theorem Denotes.of_takeOperands
    {popped : Session} {left right : Text}
    (h : s.Denotes m)
    (hoperands : s.takeOperands = .ok (left, right, popped)) :
    ∃ leftItem rightItem below, m.stack = leftItem :: rightItem :: below ∧
      Item.ofText? left = some leftItem ∧ Item.ofText? right = some rightItem ∧
      popped.Denotes { m with stack := below } := by
  obtain ⟨hentries, hbindings⟩ := takeOperands_eq_ok hoperands
  have hstack := h.stack
  rw [hentries, List.map_cons, List.map_cons] at hstack
  obtain ⟨leftItem, rest, hm, hleft, hrest⟩ := List.map_eq_cons_iff.1 hstack.symm
  obtain ⟨rightItem, below, rfl, hright, hbelow⟩ := List.map_eq_cons_iff.1 hrest
  refine ⟨leftItem, rightItem, below, hm, hleft.symm, hright.symm, hbelow.symm, ?_⟩
  rw [hbindings]
  exact h.values

/-- Where operands are missing, they are missing on the machine. -/
theorem Denotes.step_eq_error_of_missing
    {restored : Session} (op : Operator)
    (h : s.Denotes m)
    (hoperands : s.takeOperands = .error restored) :
    m.step (.operator op) = .error .missingOperand := by
  have hlength : m.stack.length < 2 := by
    have hsame := congrArg List.length h.stack
    rw [List.length_map, List.length_map] at hsame
    rw [← hsame]
    exact (takeOperands_eq_error hoperands).2
  rw [Machine.step]
  split
  · rename_i hstack
    rw [hstack, List.length_cons, List.length_cons] at hlength
    omega
  · rfl

/-- **One word is one step of the machine.** -/
theorem Denotes.step
    {w : Word}
    (h : s.Denotes m)
    (hw : Token.ofText? w.text = .ok w.token?) :
    Outcome.Agree Denotes (Interruption.Denotes s w)
      (s.step w) (m.step (Instruction.ofText w.text)) := by
  have hoperand : ∀ token, w.token? = some token → token.isOperand = true →
      Outcome.Agree Denotes (Interruption.Denotes s w)
        (.ok (s.push w.text)) (m.step (Instruction.ofText w.text)) := by
    intro token htoken hoperand
    rw [htoken] at hw
    obtain ⟨item, hitem, hinstruction⟩ := Instruction.ofText_of_operand hw hoperand
    rw [hinstruction]
    exact .ok (h.push hitem)
  rw [Session.step]
  split
  · rename_i htoken
    have hinstruction : Instruction.ofText w.text = .unsupported := by
      rw [Instruction.ofText, Item.ofText?, hw, htoken]
      rfl
    rw [hinstruction]
    exact .error ⟨_, rfl, .unsupported⟩
  · rename_i value htoken
    exact hoperand _ htoken rfl
  · rename_i letter htoken
    exact hoperand _ htoken rfl
  · rename_i op htoken
    have hinstruction : Instruction.ofText w.text = .operator op := by
      rw [Instruction.ofText, hw, htoken]
    rw [hinstruction, operate]
    split
    · rename_i restored hoperands
      rw [h.step_eq_error_of_missing op hoperands, (takeOperands_eq_error hoperands).1]
      exact .error ⟨_, rfl, .missingOperand⟩
    · rename_i left right popped hoperands
      obtain ⟨leftItem, rightItem, below, hstack, hleft, hright, hpopped⟩ :=
        h.of_takeOperands hoperands
      have hstep : m.step (.operator op) =
          Machine.combine { m with stack := below } op leftItem rightItem := by
        rw [Machine.step, hstack]
      rw [hstep]
      have hcombine := hpopped.combine hleft hright op
      generalize op.effect popped.bindings left right = effect,
        Machine.combine { m with stack := below } op leftItem rightItem = next at hcombine ⊢
      cases hcombine with
      | ok hnext => exact .ok hnext
      | error herror =>
          obtain ⟨cause, rfl, hcause⟩ := herror
          simp only [putBack_of_takeOperands hoperands]
          exact .error ⟨cause, rfl, hcause⟩

/-! ### Expressions -/

theorem Denotes.run
    {spot : Nat} {texts : List Text} {words : List Word}
    (h : s.Denotes m)
    (hwords : Word.classifyFrom spot texts = .ok words) :
    (s.run words).session.Denotes
        (m.runFrom spot (texts.map Instruction.ofText)).machine ∧
      Halt.Denotes (s.run words).halt?
        (m.runFrom spot (texts.map Instruction.ofText)).trouble? := by
  induction texts generalizing s m spot words with
  | nil =>
      cases hwords
      exact ⟨h, .done⟩
  | cons t rest ih =>
      obtain ⟨token?, tail, htoken, htail, rfl⟩ := Word.classifyFrom_cons_eq_ok_iff.1 hwords
      have hagree := h.step (w := ⟨t, spot, token?⟩) htoken
      rw [List.map_cons]
      generalize hstep : s.step ⟨t, spot, token?⟩ = result,
        hmachine : m.step (Instruction.ofText t) = machineResult at hagree
      cases hagree with
      | ok hnext =>
          rw [run_cons_of_ok tail hstep, Machine.runFrom_cons_of_ok spot _ hmachine]
          exact ih hnext htail
      | error herror =>
          obtain ⟨cause, rfl, hcause⟩ := herror
          rw [run_cons_of_error tail hstep, Machine.runFrom_cons_of_error spot _ hmachine]
          exact ⟨h, .stopped hcause⟩

/-- **Evaluating an expression in a valid session is a run of the machine it denotes.** -/
theorem evaluate_refines_machine
    {s : Session} {texts : List Text}
    (h : s.IsValid)
    (htexts : ∀ t ∈ texts, t.IsClassifiable) :
    (∃! m, s.Denotes m) ∧
      ∀ m, s.Denotes m →
        (∀ m', (s.evaluate texts).session.Denotes m' ↔
          m' = (m.run (texts.map Instruction.ofText)).machine) ∧
        Halt.Denotes (s.evaluate texts).halt?
          (m.run (texts.map Instruction.ofText)).trouble? := by
  obtain ⟨m₀, hm₀⟩ := h.exists_denotes
  refine ⟨⟨m₀, hm₀, fun m' => hm₀.unique⟩, ?_⟩
  intro m hm
  obtain ⟨words, hwords⟩ := Word.exists_classify_iff.2 htexts
  obtain ⟨hdenotes, hhalt⟩ := hm.run hwords
  rw [evaluate_of_classify s hwords]
  refine ⟨fun m' => ⟨hdenotes.unique, ?_⟩, hhalt⟩
  rintro rfl
  exact hdenotes

/-- A letter without a value stops the sum, on the stack and on the machine. -/
theorem evaluate_refines_machine_unknown_letter :
    let s : Session :=
      (fresh.evaluate ["A".toList, "+5".toList, "=".toList, "007".toList]).session
    let texts : List Text := ["A".toList, "-".toList, "B".toList, "+".toList]
    (s.evaluate texts).halt? =
        some (.stopped "+".toList 3 (.unknownVariable "B".toList)) ∧
      ∃ m, s.Denotes m ∧
        (m.run (texts.map Instruction.ofText)).trouble? = some (3, .unknownLetter ⟨'B', rfl⟩) := by
  intro s texts
  have hhalt : (s.evaluate texts).halt? =
      some (.stopped "+".toList 3 (.unknownVariable "B".toList)) := by
    decide +kernel
  have htexts : Word.classify texts = .ok
      [⟨"A".toList, 0, some (.name 'A')⟩, ⟨"-".toList, 1, some (.operator (.arithmetic .subtract))⟩,
        ⟨"B".toList, 2, some (.name 'B')⟩, ⟨"+".toList, 3, some (.operator (.arithmetic .add))⟩] := by
    decide +kernel
  obtain ⟨⟨m, hm, -⟩, hrun⟩ := evaluate_refines_machine
    (isValid_fresh.evaluate ["A".toList, "+5".toList, "=".toList, "007".toList])
    (Word.exists_classify_iff.1 ⟨_, htexts⟩)
  have hdenotes := (hrun m hm).2
  rw [hhalt] at hdenotes
  refine ⟨hhalt, m, hm, ?_⟩
  generalize (m.run (texts.map Instruction.ofText)).trouble? = trouble? at hdenotes
  cases hdenotes with
  | stopped hcause =>
      cases hcause with
      | @unknownVariable _ c hletter =>
          obtain rfl : c = ⟨'B', rfl⟩ :=
            Subtype.ext (List.singleton_inj.1 (Item.eq_of_ofText?_eq_letter hletter)).symm
          rfl

end Session

end ReversePolish
