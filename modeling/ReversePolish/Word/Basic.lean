import ReversePolish.Numeral.Reader
import ReversePolish.Word.Lexeme

/-!
# Words

The words of an expression come separated, so a word has to be a single
lexeme.  `Token.ofText?` says what a text means as a word: an integer that
fits into a signed 64-bit word, a variable, an operator, or nothing.  All
that has no meaning (several lexemes, none, an integer too large) is
unsupported.

A numeral is read only after its significant digits have been counted.  One
with more digits than a numeral may have and few significant ones passes the
count and cannot be read; this is the one `Fault` that classifying can end in.
-/

namespace ReversePolish

/-- The meaning of a word. -/
inductive Token where
  | integer (value : Int)
  | name (letter : Char)
  | operator (op : Operator)
deriving DecidableEq, Repr

namespace Token

/-- The meaning of a text as a word, if it has one. -/
def ofText? (t : Text) : Except Numeral.Fault (Option Token) :=
  match Lexeme.scan? t with
  | some [.integer text] => do
      if ← Numeral.inRange text then
        return some (integer (← Numeral.read text))
      else return none
  | some [.name letter] => return some (name letter)
  | some [.operator op] => return some (operator op)
  | _ => return none

/-- Integers. -/
def isInteger : Token → Bool
  | integer _ => true
  | _ => false

/-- Names of variables. -/
def isName : Token → Bool
  | name _ => true
  | _ => false

/-- What may stand on the stack. -/
def isOperand : Token → Bool
  | integer _ | name _ => true
  | operator _ => false

end Token

/-- The integer that a text means as a word, if it means one. -/
def Text.integer? (t : Text) : Except Numeral.Fault (Option Int) := do
  match ← Token.ofText? t with
  | some (.integer value) => return some value
  | _ => return none

/-- A word with its position in the expression and its meaning. -/
structure Word where
  text : Text
  /-- The number of words before this one. -/
  spot : Nat
  /-- Nothing for an unsupported word. -/
  token? : Option Token
deriving DecidableEq, Repr

namespace Word

/-- The given texts as words, the first of them at position `spot`. -/
def classifyFrom (spot : Nat) : List Text → Except Numeral.Fault (List Word)
  | [] => .ok []
  | t :: rest => do
      let token? ← Token.ofText? t
      let words ← classifyFrom (spot + 1) rest
      return ⟨t, spot, token?⟩ :: words

/-- The given texts as the words of an expression. -/
def classify (texts : List Text) : Except Numeral.Fault (List Word) :=
  classifyFrom 0 texts

/-- The name of the class to which a word belongs. -/
def className (w : Word) : Text :=
  match w.token? with
  | some (.integer _) => "Literal".toList
  | some (.name _) => "Variable".toList
  | some (.operator _) => "Operator".toList
  | none => "Unsupported".toList

/-- A word with its class, for display. -/
def display (w : Word) : Text :=
  '<' :: (w.className ++ ' ' :: Text.Quoted.ofText w.text ++ ['>'])

end Word

end ReversePolish
