import ReversePolish.Json.Basic
import ReversePolish.Numeral.Reader
import ReversePolish.Word.Lexeme

/-!
# Reading JSON

The reader takes the JSON grammar with three additions: the names `NaN`,
`Infinity` and `-Infinity` for numbers, unpaired surrogates in strings, and
objects in which a key comes more than once.  Blanks are the space, the tab,
the line feed and the carriage return.  A number without fraction and exponent
is an integer, which may not have more digits than a numeral.  A document is
one value with blanks around it.

Every function answers what it read together with the text that remains.  The
depth of the recursion is bounded by a number, for which twice the length of
the text is enough: of two calls, one inside the other, at least one has read a
character.

A text may be refused although nothing is wrong with its form.  Only so many
arrays and objects may be open inside one another, and the one that is too many
is refused at its opening bracket, before anything behind it is looked at.
-/

namespace ReversePolish
namespace Json

/-- What holds other values. -/
inductive Container where
  | array
  | object
deriving DecidableEq, Repr

namespace Container

/-- The container in words. -/
def name : Container → Text
  | array => "array".toList
  | object => "object".toList

end Container

/-- Why a text is not read as a document. -/
inductive Fault where
  | malformed
  /-- An array or object is opened inside too many others. -/
  | nesting (c : Container)
deriving DecidableEq, Repr

/-- The greatest number of arrays and objects that may be open inside one another: a thousand calls
may be under way at once, and eight are when reading starts. -/
def nestingLimit : Nat := 1000 - 8

/-- What was read, without which the text is malformed. -/
def wellFormed {α : Type} : Option α → Except Fault α
  | none => .error .malformed
  | some a => .ok a

/-- The room that is left inside a container, if there is room for it. -/
def enter (c : Container) : (room : Nat) → Except Fault Nat
  | 0 => .error (.nesting c)
  | room + 1 => .ok room

/-- The blanks between the parts of a document. -/
def isBlank (c : Char) : Bool :=
  c == ' ' || c == '\t' || c == '\n' || c == '\r'

/-- A text without the blanks at its start. -/
def skipBlanks (t : Text) : Text :=
  t.dropWhile isBlank

/-- The rest of a text that starts with the given piece. -/
def expect? : (piece : Text) → Text → Option Text
  | [], rest => some rest
  | _ :: _, [] => none
  | c :: piece, d :: rest => if c = d then expect? piece rest else none

/-! ### Strings -/

/-- The value of a hexadecimal digit. -/
def hexDigit? (c : Char) : Option Nat :=
  if '0' ≤ c ∧ c ≤ '9' then some (c.toNat - 0x30)
  else if 'a' ≤ c ∧ c ≤ 'f' then some (c.toNat - 0x57)
  else if 'A' ≤ c ∧ c ≤ 'F' then some (c.toNat - 0x37)
  else none

/-- The number that four hexadecimal digits spell. -/
def hexUnit? (a b c d : Char) : Option Nat := do
  let a ← hexDigit? a
  let b ← hexDigit? b
  let c ← hexDigit? c
  let d ← hexDigit? d
  return ((a * 16 + b) * 16 + c) * 16 + d

/-- The character for which a letter or mark stands behind a backslash. -/
def unescape? : Char → Option Char
  | '\x22' => some '\x22'
  | '\x5c' => some '\x5c'
  | '/' => some '/'
  | 'b' => some '\x08'
  | 'f' => some '\x0c'
  | 'n' => some '\n'
  | 'r' => some '\r'
  | 't' => some '\t'
  | _ => none

/-- The numbers of what a string holds, up to its closing quotation mark. -/
def readCodes : Text → Option (List Nat × Text)
  | [] => none
  | '\x22' :: rest => some ([], rest)
  | '\x5c' :: 'u' :: a :: b :: c :: d :: rest => do
      let unit ← hexUnit? a b c d
      let (codes, rest) ← readCodes rest
      return (unit :: codes, rest)
  | '\x5c' :: mark :: rest => do
      let c ← unescape? mark
      let (codes, rest) ← readCodes rest
      return (c.toNat :: codes, rest)
  | c :: rest =>
      if c < ' ' ∨ c = '\x5c' then none
      else do
        let (codes, rest) ← readCodes rest
        return (c.toNat :: codes, rest)

/-- The first halves of surrogate pairs. -/
def isHighSurrogate (code : Nat) : Bool :=
  0xd800 ≤ code && code < 0xdc00

/-- The second halves of surrogate pairs. -/
def isLowSurrogate (code : Nat) : Bool :=
  0xdc00 ≤ code && code < 0xe000

/-- The number of the character for which a surrogate pair stands. -/
def joinPair (high low : Nat) : Nat :=
  0x10000 + (high - 0xd800) * 0x400 + (low - 0xdc00)

/-- A number on its own as a symbol. -/
def symbolOfCode (code : Nat) : Text.Symbol :=
  if isHighSurrogate code || isLowSurrogate code then .surrogate code
  else .char (Char.ofNat code)

/-- Numbers as symbols; a first half with a second half behind it is one character. -/
def symbolsOfCodes : List Nat → List Text.Symbol
  | [] => []
  | [code] => [symbolOfCode code]
  | high :: low :: rest =>
      if isHighSurrogate high && isLowSurrogate low then
        .char (Char.ofNat (joinPair high low)) :: symbolsOfCodes rest
      else symbolOfCode high :: symbolsOfCodes (low :: rest)

/-- A string whose opening quotation mark was read. -/
def readString (t : Text) : Option (List Text.Symbol × Text) := do
  let (codes, rest) ← readCodes t
  return (symbolsOfCodes codes, rest)

/-! ### Numbers -/

/-- The digits before the point: a single zero, or digits that do not start with zero. -/
def readWhole : Text → Option (Text × Text)
  | [] => none
  | c :: rest =>
      if c = '0' then some ([c], rest)
      else if Lexeme.isDigit c then
        some (c :: rest.takeWhile Lexeme.isDigit, rest.dropWhile Lexeme.isDigit)
      else none

/-- The digits behind a point, if a point with digits behind it follows. -/
def readFraction? : Text → Option (Text × Text)
  | '.' :: rest =>
      let digits := rest.takeWhile Lexeme.isDigit
      if digits.isEmpty then none else some (digits, rest.dropWhile Lexeme.isDigit)
  | _ => none

/-- The number that ASCII digits spell. -/
def valueOfText (digits : Text) : Nat :=
  Numeral.valueOfDigits (digits.map fun c => c.toNat - 0x30)

/-- Digits behind the mark of an exponent and its sign. -/
def readExponentDigits? (negative : Bool) (t : Text) : Option (Int × Text) :=
  let digits := t.takeWhile Lexeme.isDigit
  let magnitude : Int := valueOfText digits
  if digits.isEmpty then none
  else some (if negative then -magnitude else magnitude, t.dropWhile Lexeme.isDigit)

/-- An exponent, if one follows. -/
def readExponent? : Text → Option (Int × Text)
  | mark :: rest =>
      if mark = 'e' ∨ mark = 'E' then
        match rest with
        | '+' :: rest => readExponentDigits? false rest
        | '-' :: rest => readExponentDigits? true rest
        | rest => readExponentDigits? false rest
      else none
  | [] => none

/-- A number whose sign was read. -/
def readMagnitude (negative : Bool) (t : Text) : Option (Json × Text) := do
  let (whole, rest) ← readWhole t
  let fraction? := readFraction? rest
  let (fraction, rest) := fraction?.getD ([], rest)
  let exponent? := readExponent? rest
  let (exponent, rest) := exponent?.getD (0, rest)
  if fraction?.isNone && exponent?.isNone then
    if Numeral.digitLimit < whole.length then none
    else
      let magnitude : Int := valueOfText whole
      return (int (if negative then -magnitude else magnitude), rest)
  else
    let digits := valueOfText (whole ++ fraction)
    return (float (.ofDecimal negative digits (exponent - fraction.length)), rest)

/-- A number. -/
def readNumber : Text → Option (Json × Text)
  | '-' :: rest => readMagnitude true rest
  | t => readMagnitude false t

/-! ### Values -/

/-- The values that are named, with their names. -/
def named : List (Text × Json) :=
  [("null".toList, null), ("true".toList, bool true), ("false".toList, bool false),
   ("NaN".toList, float .nan), ("Infinity".toList, float (.infinite false)),
   ("-Infinity".toList, float (.infinite true))]

/-- The value whose name a text starts with, and the text behind the name. -/
def readNamed? (t : Text) : Option (Json × Text) :=
  named.findSome? fun (name, value) => (expect? name t).map (value, ·)

mutual

/-- A value at the start of a text, with room for so many containers inside one another. -/
def readValue : (depth room : Nat) → Text → Except Fault (Json × Text)
  | 0, _, _ => .error .malformed
  | depth + 1, room, t =>
      match t with
      | '\x22' :: rest => do
          let (symbols, rest) ← wellFormed (readString rest)
          return (string symbols, rest)
      | '[' :: rest => do
          let room ← enter .array room
          match skipBlanks rest with
          | ']' :: rest => return (array [], rest)
          | rest =>
              let (items, rest) ← readItems depth room rest
              return (array items, rest)
      | '\x7b' :: rest => do
          let room ← enter .object room
          match skipBlanks rest with
          | '\x7d' :: rest => return (object [], rest)
          | rest =>
              let (members, rest) ← readMembers depth room rest
              return (ofMembers members, rest)
      | t => wellFormed ((readNamed? t).or (readNumber t))

/-- The items of an array, at least one, and the bracket that closes it. -/
def readItems : (depth room : Nat) → Text → Except Fault (List Json × Text)
  | 0, _, _ => .error .malformed
  | depth + 1, room, t => do
      let (item, rest) ← readValue depth room t
      match skipBlanks rest with
      | ']' :: rest => return ([item], rest)
      | ',' :: rest =>
          let (items, rest) ← readItems depth room (skipBlanks rest)
          return (item :: items, rest)
      | _ => throw .malformed

/-- The members of an object, at least one, and the brace that closes it. -/
def readMembers :
    (depth room : Nat) → Text → Except Fault (List (List Text.Symbol × Json) × Text)
  | 0, _, _ => .error .malformed
  | depth + 1, room, t =>
      match t with
      | '\x22' :: rest => do
          let (key, rest) ← wellFormed (readString rest)
          match skipBlanks rest with
          | ':' :: rest =>
              let (value, rest) ← readValue depth room (skipBlanks rest)
              match skipBlanks rest with
              | '\x7d' :: rest => return ([(key, value)], rest)
              | ',' :: rest =>
                  let (members, rest) ← readMembers depth room (skipBlanks rest)
                  return ((key, value) :: members, rest)
              | _ => throw .malformed
          | _ => throw .malformed
      | _ => throw .malformed

end

/-- The value of a document. -/
def parse (t : Text) : Except Fault Json := do
  let (value, rest) ← readValue (2 * t.length + 2) nestingLimit (skipBlanks t)
  if (skipBlanks rest).isEmpty then return value else throw .malformed

end Json
end ReversePolish
