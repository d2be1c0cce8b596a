import ReversePolish.Proofs.Arithmetic
import ReversePolish.Word.Lexeme

/-!
# The exact machine

The machine that the calculator stands for knows nothing of texts.  On its
stack are integers of a signed 64-bit word and letters, a letter has such an
integer for a value or none, and a result is computed exactly before it is
tested.

An operator takes the top item as its left operand and the next one as its
right operand.  In arithmetic a left operand without a value is reported
before a right one, then a division by zero, then a result that does not fit.
An assignment reports an integer where the letter should be before a letter
where the integer should be.  A step that meets trouble leads nowhere, so the
machine stays as it was.
-/

namespace ReversePolish

namespace Machine

/-- An integer of a signed 64-bit word. -/
abbrev Number := { n : Int // Numeral.Fits n }

/-- A letter from A to Z. -/
abbrev Letter := { c : Char // Lexeme.isLetter c = true }

/-- What stands on the stack. -/
inductive Item where
  | integer (n : Number)
  | letter (c : Letter)
deriving DecidableEq

/-- Why a step leads nowhere. -/
inductive Trouble where
  | unsupported
  | missingOperand
  | unknownLetter (c : Letter)
  | integerTarget (n : Number)
  | letterValue (c : Letter)
  | divisionByZero
  | overflow
deriving DecidableEq

/-- What the machine is told to do. -/
inductive Instruction where
  | push (item : Item)
  | operator (op : Operator)
  | unsupported
deriving DecidableEq

end Machine

/-- The items on the stack, the top first, and the values of the letters. -/
structure Machine where
  stack : List Machine.Item
  values : Machine.Letter → Option Machine.Number

namespace Machine

/-- The integer for which an item stands. -/
def resolve (m : Machine) : Item → Except Trouble Number
  | .integer n => .ok n
  | .letter c =>
      match m.values c with
      | none => .error (.unknownLetter c)
      | some n => .ok n

/-- The exact result, if there is one and it fits. -/
def compute (operation : Arithmetic) (left right : Number) : Except Trouble Number :=
  match operation.exactResult? left right with
  | none => .error .divisionByZero
  | some n => if h : Numeral.Fits n then .ok ⟨n, h⟩ else .error .overflow

/-- Gives a letter a value. -/
def assign (m : Machine) (c : Letter) (n : Number) : Machine :=
  { m with values := fun other => if other = c then some n else m.values other }

/-- Puts an item on the stack. -/
def push (m : Machine) (item : Item) : Machine :=
  { m with stack := item :: m.stack }

/-- What an operator makes of its operands, which are off the stack. -/
def combine (m : Machine) (op : Operator) (left right : Item) : Except Trouble Machine :=
  match op with
  | .arithmetic operation => do
      let leftValue ← m.resolve left
      let rightValue ← m.resolve right
      let result ← compute operation leftValue rightValue
      return m.push (.integer result)
  | .assign =>
      match right, left with
      | .integer n, _ => .error (.integerTarget n)
      | .letter _, .letter c => .error (.letterValue c)
      | .letter c, .integer n => .ok (m.assign c n)

/-- One step of the machine. -/
def step (m : Machine) : Instruction → Except Trouble Machine
  | .push item => .ok (m.push item)
  | .operator op =>
      match m.stack with
      | left :: right :: below => combine { m with stack := below } op left right
      | _ => .error .missingOperand
  | .unsupported => .error .unsupported

/-- Where a run of the machine ends, and the trouble that ended it, if any. -/
structure Result where
  machine : Machine
  /-- The number of steps before the one that led nowhere, and its trouble. -/
  trouble? : Option (Nat × Trouble)

/-- Takes steps in order, of which the first has the given number, up to one that leads nowhere. -/
def runFrom (m : Machine) (spot : Nat) : List Instruction → Result
  | [] => ⟨m, none⟩
  | instruction :: rest =>
      match m.step instruction with
      | .error trouble => ⟨m, some (spot, trouble)⟩
      | .ok next => next.runFrom (spot + 1) rest

/-- Takes steps in order, up to one that leads nowhere. -/
def run (m : Machine) (instructions : List Instruction) : Result :=
  m.runFrom 0 instructions

@[simp] theorem values_assign_self
    (m : Machine) (c : Letter) (n : Number) :
    (m.assign c n).values c = some n := by
  simp [assign]

theorem values_assign_of_ne
    (m : Machine) {c other : Letter} (n : Number)
    (h : other ≠ c) :
    (m.assign c n).values other = m.values other := by
  simp [assign, h]

theorem runFrom_cons_of_ok
    {m next : Machine} {instruction : Instruction} (spot : Nat) (rest : List Instruction)
    (h : m.step instruction = .ok next) :
    m.runFrom spot (instruction :: rest) = next.runFrom (spot + 1) rest := by
  rw [runFrom, h]

theorem runFrom_cons_of_error
    {m : Machine} {instruction : Instruction} {trouble : Trouble} (spot : Nat)
    (rest : List Instruction)
    (h : m.step instruction = .error trouble) :
    m.runFrom spot (instruction :: rest) = ⟨m, some (spot, trouble)⟩ := by
  rw [runFrom, h]

end Machine

end ReversePolish
