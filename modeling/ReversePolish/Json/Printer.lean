import ReversePolish.Json.Basic

/-!
# Writing JSON

A document is written on one line in ASCII, with a space behind each comma
and colon.  In strings the quotation mark, the backslash and five control
characters have short escapes.  Every other character outside the range from
the space to the tilde is written by number, in four hexadecimal digits, or as
a surrogate pair if its number needs more.
-/

namespace ReversePolish
namespace Json

/-- A unit of sixteen bits, written by number. -/
def escapedUnit (unit : Nat) : Text :=
  '\x5c' :: 'u' :: Text.hexadecimal 4 unit

/-- The first half of the surrogate pair for a number above FFFF. -/
def highSurrogate (code : Nat) : Nat :=
  0xd800 + (code - 0x10000) / 0x400

/-- The second half of the surrogate pair for a number above FFFF. -/
def lowSurrogate (code : Nat) : Nat :=
  0xdc00 + (code - 0x10000) % 0x400

/-- A symbol by number. -/
def escapedCode (code : Nat) : Text :=
  if code < 0x10000 then escapedUnit code
  else escapedUnit (highSurrogate code) ++ escapedUnit (lowSurrogate code)

/-- The letter or mark that stands for a character behind a backslash. -/
def shortEscape? : Char → Option Char
  | '\x22' => some '\x22'
  | '\x5c' => some '\x5c'
  | '\n' => some 'n'
  | '\r' => some 'r'
  | '\t' => some 't'
  | '\x0c' => some 'f'
  | '\x08' => some 'b'
  | _ => none

/-- How a symbol stands in a string. -/
def writeSymbol : Text.Symbol → Text
  | .surrogate code => escapedCode code
  | .char c =>
      match shortEscape? c with
      | some mark => ['\x5c', mark]
      | none => if ' ' ≤ c ∧ c ≤ '~' then [c] else escapedCode c.toNat

/-- A string between quotation marks. -/
def writeString (symbols : List Text.Symbol) : Text :=
  '\x22' :: (symbols.flatMap writeSymbol ++ ['\x22'])

mutual

/-- The written form of a value. -/
def write : Json → Text
  | null => "null".toList
  | bool true => "true".toList
  | bool false => "false".toList
  | int n => Numeral.ofInt n
  | float x => x.render "Infinity".toList "NaN".toList
  | string symbols => writeString symbols
  | array items => '[' :: (writeItems items ++ [']'])
  | object members => '\x7b' :: (writeMembers members ++ ['\x7d'])

/-- The items of an array, with commas between them. -/
def writeItems : List Json → Text
  | [] => []
  | [item] => item.write
  | item :: rest => item.write ++ ", ".toList ++ writeItems rest

/-- The members of an object, with commas between them. -/
def writeMembers : List (List Text.Symbol × Json) → Text
  | [] => []
  | [(key, value)] => writeString key ++ ": ".toList ++ value.write
  | (key, value) :: rest =>
      writeString key ++ ": ".toList ++ value.write ++ ", ".toList ++ writeMembers rest

end

end Json
end ReversePolish
