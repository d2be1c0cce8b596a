import ReversePolish.Json.Basic
import ReversePolish.Session.Basic
import ReversePolish.Word.Basic

/-!
# Sessions as documents

A record is kept as an object with two members: `stack`, an array of strings
from the bottom to the top, and `variables`, an array of pairs of a name and a
value.

Reading takes any object.  A member that is missing counts as an empty array
and members of other names are passed over.  Every entry of the stack has to
be an integer or a variable, every name a variable and every value an integer,
each as a word.  The first flaw refuses the document: the entries of the stack
are looked at before the pairs, and in a pair the name before the value.
-/

namespace ReversePolish

/-- What makes a document something other than a session. -/
inductive Flaw where
  | notObject
  | notLists
  /-- An entry of the stack is neither an integer nor a variable. -/
  | entry (entry : Json)
  /-- An entry of the variables is no pair of strings. -/
  | pair (entry : Json)
  /-- The name of a pair is no variable. -/
  | name (name : List Text.Symbol)
  /-- The value of a pair is no integer. -/
  | value (name : Text) (value : List Text.Symbol)
deriving Repr

namespace Flaw

/-- The flaw in words. -/
def message : Flaw → Text
  | .notObject => "expected a JSON object".toList
  | .notLists => "\x27stack\x27 and \x27variables\x27 must be lists".toList
  | .entry e =>
      "stack entry ".toList ++ e.display ++ " is neither an integer nor a variable".toList
  | .pair e =>
      "variable entry ".toList ++ e.display ++ " is not a [name, value] pair".toList
  | .name n => Text.Quoted.ofSymbols n ++ " is not a variable name".toList
  | .value n v =>
      "variable ".toList ++ n ++ " holds ".toList ++ Text.Quoted.ofSymbols v ++
        ", which is not an integer".toList

end Flaw

/-- Why no record is read from a document. -/
inductive Refusal where
  | flaw (f : Flaw)
  /-- A numeral cannot be read. -/
  | fault (f : Numeral.Fault)
deriving Repr

namespace Record

/-- A string of a document, if it is a word whose meaning passes the test. -/
def readWord
    (accepts : Token → Bool) (flaw : Flaw) (symbols : List Text.Symbol) :
    Except Refusal Text :=
  match Text.Symbol.toText? symbols with
  | none => .error (.flaw flaw)
  | some text =>
      match Token.ofText? text with
      | .error f => .error (.fault f)
      | .ok token? => if token?.any accepts then .ok text else .error (.flaw flaw)

/-- An entry of the stack. -/
def readEntry : Json → Except Refusal Text
  | .string symbols => readWord Token.isOperand (.entry (.string symbols)) symbols
  | entry => .error (.flaw (.entry entry))

/-- A name with its value. -/
def readPair : Json → Except Refusal (Text × Text)
  | .array [.string name, .string value] => do
      let nameText ← readWord Token.isName (.name name) name
      let valueText ← readWord Token.isInteger (.value nameText value) value
      return (nameText, valueText)
  | entry => .error (.flaw (.pair entry))

/-- The record that a document holds. -/
def ofDocument : Json → Except Refusal Record
  | .object members =>
      match (Json.member? "stack".toList members).getD (.array []),
          (Json.member? "variables".toList members).getD (.array []) with
      | .array entries, .array pairs => do
          let stack ← entries.mapM readEntry
          let bindings ← pairs.mapM readPair
          return ⟨stack, bindings⟩
      | _, _ => .error (.flaw .notLists)
  | _ => .error (.flaw .notObject)

/-- Text as a string of a document. -/
def stringOf (t : Text) : Json :=
  .string (Text.Symbol.ofText t)

/-- A name with its value as a pair. -/
def pairOf : Text × Text → Json
  | (name, value) => .array [stringOf name, stringOf value]

/-- The document that holds a record. -/
def toDocument (r : Record) : Json :=
  .object
    [(Text.Symbol.ofText "stack".toList, .array (r.stack.map stringOf)),
     (Text.Symbol.ofText "variables".toList, .array (r.bindings.map pairOf))]

/-- Text reads back as a word exactly when its meaning passes the test. -/
theorem readWord_ofText
    (accepts : Token → Bool) (flaw : Flaw) (t : Text) {token? : Option Token}
    (h : Token.ofText? t = .ok token?) :
    readWord accepts flaw (Text.Symbol.ofText t) =
      if token?.any accepts then .ok t else .error (.flaw flaw) := by
  simp [readWord, h]

end Record

end ReversePolish
