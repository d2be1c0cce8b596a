import ReversePolish.Numeral.Basic
import ReversePolish.Text.Blank
import ReversePolish.Text.DecimalDigit
import ReversePolish.Text.Quoted

/-!
# Reading numerals

`read` takes a decimal numeral in a liberal spelling: white space around it,
one sign, digits of any script, and single underscores between digits.  It
refuses a numeral of more than `digitLimit` digits, leading zeros included,
before it looks at what follows the digits.

`inRange` asks whether a text names an integer of a signed 64-bit word.  It
first counts the digits that are left when signs and leading zeros are gone,
and reads the numeral only if there are few enough of them.
-/

namespace ReversePolish
namespace Numeral

/-- Why a text is not read as an integer. -/
inductive Fault where
  /-- The numeral has so many digits. -/
  | tooLong (digits : Nat)
  /-- The text is no numeral. -/
  | malformed (text : Text)
deriving DecidableEq, Repr

/-- The greatest number of digits that a numeral may have. -/
def digitLimit : Nat := 4300

/-- What a character means in a numeral. -/
inductive Mark where
  | blank
  | sign (negative : Bool)
  | digit (value : Nat)
  | underscore
  | other
deriving DecidableEq, Repr

namespace Mark

/-- The meaning of a character. -/
def ofChar (c : Char) : Mark :=
  match Text.DecimalDigit.value? c with
  | some value => digit value
  | none =>
      if Text.isWhiteSpace c then blank
      else if c = '+' then sign false
      else if c = '-' then sign true
      else if c = '_' then underscore
      else other

/-- The characters of which the body of a numeral consists. -/
def isBody : Mark → Bool
  | digit _ | underscore => true
  | _ => false

/-- The value of a digit. -/
def digitValue? : Mark → Option Nat
  | digit value => some value
  | _ => none

end Mark

/-- The number that decimal digits spell, the most significant digit first. -/
def valueOfDigits (digits : List Nat) : Nat :=
  digits.foldl (fun value digit => 10 * value + digit) 0

/-- Whether a minus sign opens the marks, and the marks without their sign. -/
def splitSign : List Mark → Bool × List Mark
  | .sign negative :: rest => (negative, rest)
  | marks => (false, marks)

/-- Every underscore stands between two digits. -/
def wellSpaced : List Mark → Bool
  | [] => true
  | .underscore :: _ => false
  | _ :: .underscore :: .digit value :: rest => wellSpaced (.digit value :: rest)
  | _ :: .underscore :: _ => false
  | _ :: rest => wellSpaced rest

/-- The integer that a numeral in liberal spelling stands for. -/
def read (t : Text) : Except Fault Int :=
  let marks := (t.map Mark.ofChar).dropWhile (· == .blank)
  let (negative, rest) := splitSign marks
  let body := rest.takeWhile Mark.isBody
  let behind := rest.dropWhile Mark.isBody
  let digits := body.filterMap Mark.digitValue?
  if wellSpaced body then
    if digitLimit < digits.length then .error (.tooLong digits.length)
    else if digits.isEmpty || !behind.all (· == .blank) then .error (.malformed t)
    else
      let magnitude : Int := valueOfDigits digits
      .ok (if negative then -magnitude else magnitude)
  else .error (.malformed t)

/-- A text without the signs and then the zeros at its start. -/
def significant (t : Text) : Text :=
  (t.dropWhile fun c => c == '+' || c == '-').dropWhile (· == '0')

/-- Whether a text is the numeral of an integer that fits into a signed 64-bit word. -/
def inRange (t : Text) : Except Fault Bool :=
  if mostDigits < (significant t).length then .ok false
  else (read t).map (fun n => decide (Fits n))

namespace Fault

/-- The number of characters after which a quoted text is cut off in a message. -/
def quotedLimit : Nat := 200

/-- The fault in words. -/
def message : Fault → Text
  | tooLong digits =>
      "Exceeds the limit (".toList ++ ofNat digitLimit ++
        " digits) for integer string conversion: value has ".toList ++ ofNat digits ++
        " digits; use sys.set_int_max_str_digits() to increase the limit".toList
  | malformed text =>
      "invalid literal for int() with base 10: ".toList ++
        (Text.Quoted.ofText text).take quotedLimit

end Fault

end Numeral
end ReversePolish
