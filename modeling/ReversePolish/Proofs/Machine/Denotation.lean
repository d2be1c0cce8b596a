import ReversePolish.Proofs.Machine.Basic
import ReversePolish.Proofs.Session.Reading

/-!
# The machine that a session denotes

A session denotes a machine: the texts on its stack are read as items, and its
bindings as the values of the letters.  Different spellings of an integer
stand for the same item.  A valid session denotes exactly one machine.
-/

namespace ReversePolish

open Machine (Item Letter Number Trouble Instruction)

/-! ### What texts denote -/

namespace Machine

/-- The item that the meaning of a word stands for. -/
def Item.ofToken? : Token → Option Item
  | .integer n => if h : Numeral.Fits n then some (.integer ⟨n, h⟩) else none
  | .name c => if h : Lexeme.isLetter c = true then some (.letter ⟨c, h⟩) else none
  | .operator _ => none

/-- The item that a text stands for. -/
def Item.ofText? (t : Text) : Option Item :=
  match Token.ofText? t with
  | .ok (some token) => ofToken? token
  | _ => none

/-- What a word tells the machine. -/
def Instruction.ofText (t : Text) : Instruction :=
  match Token.ofText? t with
  | .ok (some (.operator op)) => .operator op
  | _ => (Item.ofText? t).elim .unsupported .push

/-- The token of an item. -/
def Item.token : Item → Token
  | .integer n => .integer n.val
  | .letter c => .name c.val

theorem Item.ofToken?_eq_some_iff
    {token : Token} {item : Item} :
    ofToken? token = some item ↔ token = item.token := by
  constructor
  · intro h
    cases token with
    | integer value =>
        rw [ofToken?] at h
        split at h
        · cases h
          rfl
        · cases h
    | name letter =>
        rw [ofToken?] at h
        split at h
        · cases h
          rfl
        · cases h
    | operator op => cases h
  · rintro rfl
    cases item with
    | integer n => exact dif_pos n.property
    | letter c => exact dif_pos c.property

theorem Item.ofText?_eq_some_iff
    {t : Text} {item : Item} :
    Item.ofText? t = some item ↔ Token.ofText? t = .ok (some item.token) := by
  rw [ofText?]
  constructor
  · intro h
    split at h
    · rename_i token htoken
      rw [htoken, Item.ofToken?_eq_some_iff.1 h]
    · cases h
  · intro h
    rw [h]
    exact Item.ofToken?_eq_some_iff.2 rfl

/-- A letter is denoted by itself alone. -/
theorem Item.eq_of_ofText?_eq_letter
    {t : Text} {c : Letter}
    (h : Item.ofText? t = some (.letter c)) :
    t = [c.val] :=
  (Token.ofText?_eq_name_iff.1 (ofText?_eq_some_iff.1 h)).2

/-- What may stand on the stack stands for an item. -/
theorem Item.exists_ofText?
    {t : Text}
    (h : t.IsOperand) :
    ∃ item, Item.ofText? t = some item := by
  rcases h with ⟨value, hvalue⟩ | ⟨letter, hletter⟩
  · have hfits : Numeral.Fits value := (Text.read_of_ofText? hvalue).2
    exact ⟨.integer ⟨value, hfits⟩, ofText?_eq_some_iff.2 hvalue⟩
  · have hisLetter : Lexeme.isLetter letter = true := (Token.ofText?_eq_name_iff.1 hletter).1
    exact ⟨.letter ⟨letter, hisLetter⟩, ofText?_eq_some_iff.2 hletter⟩

theorem Instruction.ofText_of_operand
    {t : Text} {token : Token}
    (h : Token.ofText? t = .ok (some token))
    (hoperand : token.isOperand = true) :
    ∃ item, Item.ofText? t = some item ∧ Instruction.ofText t = .push item := by
  obtain ⟨item, hitem⟩ := Item.exists_ofText? (Text.isOperand_iff.2 ⟨token, h, hoperand⟩)
  refine ⟨item, hitem, ?_⟩
  rw [ofText, h, hitem]
  cases token with
  | operator op => cases hoperand
  | integer value => rfl
  | name letter => rfl

end Machine

/-- A cause, with the text that it is about, says what a trouble says. -/
inductive Cause.Denotes : Cause → Trouble → Prop
  | unsupported : Denotes .unsupported .unsupported
  | missingOperand : Denotes .missingOperand .missingOperand
  | unknownVariable {t : Text} {c : Letter} (h : Item.ofText? t = some (.letter c)) :
      Denotes (.unknownVariable t) (.unknownLetter c)
  | invalidTarget {t : Text} {n : Number} (h : Item.ofText? t = some (.integer n)) :
      Denotes (.invalidTarget t) (.integerTarget n)
  | invalidValue {t : Text} {c : Letter} (h : Item.ofText? t = some (.letter c)) :
      Denotes (.invalidValue t) (.letterValue c)
  | divisionByZero : Denotes .divisionByZero .divisionByZero
  | overflow : Denotes .overflow .overflow

/-- An obstacle is a cause that says what a trouble says. -/
def Obstacle.Denotes (o : Obstacle) (trouble : Trouble) : Prop :=
  ∃ cause : Cause, o = .cause cause ∧ cause.Denotes trouble

/-- An evaluation ends as a run does: both go through, or both stop at the same word. -/
inductive Halt.Denotes : Option Halt → Option (Nat × Trouble) → Prop
  | done : Denotes none none
  | stopped {word : Text} {spot : Nat} {cause : Cause} {trouble : Trouble}
      (h : cause.Denotes trouble) :
      Denotes (some (.stopped word spot cause)) (some (spot, trouble))

/-- The session says what the machine says. -/
structure Session.Denotes (s : Session) (m : Machine) : Prop where
  stack : s.stack.entries.map Item.ofText? = m.stack.map some
  values : ∀ c : Letter,
    (s.bindings.find? [c.val]).map Item.ofText? = (m.values c).map fun n => some (.integer n)

namespace Session

/-! ### The machine of a session -/

theorem Denotes.unique
    {s : Session} {m m' : Machine}
    (h : s.Denotes m)
    (h' : s.Denotes m') :
    m' = m := by
  obtain ⟨stack, values⟩ := m
  obtain ⟨stack', values'⟩ := m'
  have hstack : stack' = stack :=
    (Option.some_injective Item).list_map (h'.stack.symm.trans h.stack)
  have hvalues : values' = values := by
    funext c
    have hinjective : Function.Injective fun n : Number => some (Item.integer n) := by
      intro a b hab
      cases hab
      rfl
    exact Option.map_injective hinjective ((h'.values c).symm.trans (h.values c))
  rw [hstack, hvalues]

theorem exists_items
    {entries : List Text}
    (h : ∀ t ∈ entries, t.IsOperand) :
    ∃ items, entries.map Item.ofText? = List.map some items := by
  induction entries with
  | nil => exact ⟨[], rfl⟩
  | cons t rest ih =>
      obtain ⟨ht, hrest⟩ := List.forall_mem_cons.1 h
      obtain ⟨item, hitem⟩ := Item.exists_ofText? ht
      obtain ⟨items, hitems⟩ := ih hrest
      exact ⟨item :: items, by rw [List.map_cons, List.map_cons, hitem, hitems]⟩

/-- The value for which the text bound to a letter stands. -/
def valueOf? (b : Bindings) (c : Letter) : Option Number :=
  (b.find? [c.val]).bind fun text =>
    match Item.ofText? text with
    | some (.integer n) => some n
    | _ => none

theorem IsValid.exists_denotes
    {s : Session}
    (h : s.IsValid) :
    ∃ m, s.Denotes m := by
  obtain ⟨items, hitems⟩ := exists_items h.entries
  refine ⟨⟨items, valueOf? s.bindings⟩, hitems, ?_⟩
  intro c
  cases hfind : s.bindings.find? [c.val] with
  | none => simp only [valueOf?, hfind, Option.map_none, Option.bind_none]
  | some text =>
      obtain ⟨value, hvalue⟩ := h.isInteger_of_find? hfind
      have hfits : Numeral.Fits value := (Text.read_of_ofText? hvalue).2
      have hitem : Item.ofText? text = some (.integer ⟨value, hfits⟩) :=
        Item.ofText?_eq_some_iff.2 hvalue
      simp only [valueOf?, hfind, Option.map_some, Option.bind_some, hitem]

end Session

end ReversePolish
