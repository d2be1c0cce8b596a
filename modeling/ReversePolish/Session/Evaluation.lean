import ReversePolish.Quotient
import ReversePolish.Session.Basic
import ReversePolish.Word.Basic

/-!
# Evaluating an expression

The words of an expression are taken from left to right.  An integer or a
variable is put on the stack as it is written.  An operator takes two entries:
the top is its left operand and the entry below the right one.  An arithmetic
operator reads an entry as an integer, or else looks its value up among the
bindings, and puts the result on the stack.  An assignment binds its right
operand to its left one, which has to be an integer.

The first word that cannot be evaluated ends the evaluation; what the words
before it did remains.  Such a word leaves the session as it found it, with
one exception: a numeral that cannot be read at all, which no session holds
whose texts were checked, ends the evaluation with the operands gone.

All words are classified before the first of them is evaluated.
-/

namespace ReversePolish

/-- Why a word cannot be evaluated. -/
inductive Cause where
  /-- No reason is known. -/
  | unexplained
  | missingOperand
  | unknownVariable (name : Text)
  /-- An integer stands where the name to be bound is expected. -/
  | invalidTarget (target : Text)
  /-- Something other than an integer stands where the value is expected. -/
  | invalidValue (value : Text)
  | unsupported
  | divisionByZero
  | overflow
deriving DecidableEq, Repr

namespace Cause

/-- The cause in words. -/
def message : Cause → Text
  | unexplained => "Evaluation went wrong.".toList
  | missingOperand =>
      "This operator needs two values on the stack, but there are fewer.".toList
  | unknownVariable name => "There is no such variable: ".toList ++ name
  | invalidTarget target =>
      "Wrong assignment order: ".toList ++ target ++ " is not a variable name.".toList
  | invalidValue value =>
      "Wrong assignment argument: ".toList ++ value ++ " is not an integer literal.".toList
  | unsupported =>
      ("This kind of input is not supported. " ++
        "A variable can only be a single letter in the range A-Z.").toList
  | divisionByZero => "Division by zero.".toList
  | overflow => "The result does not fit in a 64-bit signed integer.".toList

/-- The text that a cause is about. -/
def detail? : Cause → Option Text
  | unknownVariable text | invalidTarget text | invalidValue text => some text
  | _ => none

end Cause

/-- What an operator meets instead of a result. -/
inductive Obstacle where
  | cause (c : Cause)
  /-- A numeral cannot be read. -/
  | fault (f : Numeral.Fault)
deriving DecidableEq, Repr

namespace Arithmetic

/-- The result of an operation on two integers. -/
def eval (operation : Arithmetic) (left right : Int) : Except Cause Int := do
  let result ← match operation with
    | add => .ok (left + right)
    | subtract => .ok (left - right)
    | multiply => .ok (left * right)
    | divide =>
        match Quotient.towardsZero? left right with
        | some quotient => .ok quotient
        | none => .error .divisionByZero
  if Numeral.Fits result then .ok result else .error .overflow

end Arithmetic

namespace Bindings

/-- The integer for which an entry of the stack stands: its own, or that of the name. -/
def resolve (b : Bindings) (entry : Text) : Except Obstacle Int := do
  match ← (Text.integer? entry).mapError .fault with
  | some value => return value
  | none =>
      match b.find? entry with
      | none => throw (.cause (.unknownVariable entry))
      | some value => (Numeral.read value).mapError .fault

end Bindings

/-- What an operator does to the session once its operands are off the stack. -/
inductive Effect where
  | push (entry : Text)
  | bind (name value : Text)
deriving DecidableEq, Repr

namespace Operator

/-- What an operator does with its operands, of which the left one was on top. -/
def effect (op : Operator) (b : Bindings) (left right : Text) : Except Obstacle Effect :=
  match op with
  | arithmetic operation => do
      let leftValue ← b.resolve left
      let rightValue ← b.resolve right
      let result ← (operation.eval leftValue rightValue).mapError .cause
      return .push (Numeral.ofInt result)
  | assign => do
      if (← (Text.integer? right).mapError .fault).isSome then
        throw (.cause (.invalidTarget right))
      if (← (Text.integer? left).mapError .fault).isNone then
        throw (.cause (.invalidValue left))
      return .bind right left

end Operator

/-- How an evaluation ends before all words are done. -/
inductive Halt where
  /-- The word at the given position cannot be evaluated. -/
  | stopped (word : Text) (spot : Nat) (cause : Cause)
  /-- A numeral cannot be read. -/
  | unreadable (fault : Numeral.Fault)
deriving DecidableEq, Repr

/-- A halt, with the session as it stands then. -/
structure Interruption where
  halt : Halt
  session : Session
deriving DecidableEq, Repr

namespace Session

/-- Carries out an effect. -/
def perform (s : Session) : Effect → Session
  | .push entry => s.push entry
  | .bind name value => { s with bindings := s.bindings.insert name value }

/-- Takes the operands of an operator off the stack, the left one first.  If there are fewer than
two, what was taken goes back. -/
def takeOperands (s : Session) : Except Session (Text × Text × Session) :=
  match s.stack.pop? with
  | none => .error s
  | some (left, stack) =>
      match stack.pop? with
      | none => .error { s with stack := stack.push left }
      | some (right, below) => .ok (left, right, { s with stack := below })

/-- Puts the operands of an operator back on the stack, the left one on top. -/
def putBack (s : Session) (left right : Text) : Session :=
  (s.push right).push left

/-- Evaluates an operator. -/
def operate (s : Session) (w : Word) (op : Operator) : Except Interruption Session :=
  match s.takeOperands with
  | .error restored => .error ⟨.stopped w.text w.spot .missingOperand, restored⟩
  | .ok (left, right, popped) =>
      match op.effect popped.bindings left right with
      | .ok effect => .ok (popped.perform effect)
      | .error (.cause c) => .error ⟨.stopped w.text w.spot c, popped.putBack left right⟩
      | .error (.fault f) => .error ⟨.unreadable f, popped⟩

/-- Evaluates one word. -/
def step (s : Session) (w : Word) : Except Interruption Session :=
  match w.token? with
  | none => .error ⟨.stopped w.text w.spot .unsupported, s⟩
  | some (.integer _) | some (.name _) => .ok (s.push w.text)
  | some (.operator op) => s.operate w op

end Session

/-- A word that was evaluated, with the stack as it was after it. -/
structure Step where
  word : Text
  stack : Stack
deriving DecidableEq, Repr

/-- What an evaluation came to. -/
structure Evaluation where
  /-- The session afterwards. -/
  session : Session
  /-- The words that were evaluated, in order. -/
  steps : List Step
  /-- What ended the evaluation early. -/
  halt? : Option Halt
deriving DecidableEq, Repr

namespace Session

/-- Evaluates classified words in order, up to the first that cannot be evaluated. -/
def run (s : Session) : List Word → Evaluation
  | [] => ⟨s, [], none⟩
  | w :: rest =>
      match s.step w with
      | .error interruption => ⟨interruption.session, [], some interruption.halt⟩
      | .ok next =>
          let evaluation := next.run rest
          { evaluation with steps := ⟨w.text, next.stack⟩ :: evaluation.steps }

/-- Evaluates an expression given by its words. -/
def evaluate (s : Session) (texts : List Text) : Evaluation :=
  match Word.classify texts with
  | .error fault => ⟨s, [], some (.unreadable fault)⟩
  | .ok words => s.run words

end Session

end ReversePolish
