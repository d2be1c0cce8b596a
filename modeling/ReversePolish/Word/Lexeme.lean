import ReversePolish.Text.Basic

/-!
# Lexemes

A text is cut into lexemes from left to right: an integer is an optional sign
before one or more ASCII digits, a variable is one of the letters `A` to `Z`,
and an operator is one of `+`, `-`, `*`, `/`, `=`.  Each lexeme is the longest
that starts where the one before it ended, so a sign that stands before a
digit belongs to an integer.  Where no lexeme starts, the text has none.
-/

namespace ReversePolish

/-- The operations on two integers. -/
inductive Arithmetic where
  | add
  | subtract
  | multiply
  | divide
deriving DecidableEq, Repr

/-- What an operator word asks for. -/
inductive Operator where
  | arithmetic (operation : Arithmetic)
  | assign
deriving DecidableEq, Repr

namespace Operator

/-- The operator that a character denotes. -/
def ofChar? : Char → Option Operator
  | '+' => some (arithmetic .add)
  | '-' => some (arithmetic .subtract)
  | '*' => some (arithmetic .multiply)
  | '/' => some (arithmetic .divide)
  | '=' => some assign
  | _ => none

end Operator

/-- A piece of text that belongs together. -/
inductive Lexeme where
  /-- The whole text of an integer, with its sign. -/
  | integer (text : Text)
  /-- The letter that names a variable. -/
  | name (letter : Char)
  | operator (op : Operator)
deriving DecidableEq, Repr

namespace Lexeme

/-- The characters that may stand before the digits of an integer. -/
def isSign (c : Char) : Bool :=
  c == '+' || c == '-'

/-- The ASCII digits. -/
def isDigit (c : Char) : Bool :=
  '0' ≤ c && c ≤ '9'

/-- The letters that name variables. -/
def isLetter (c : Char) : Bool :=
  'A' ≤ c && c ≤ 'Z'

/-- The longest lexeme at the start of a text, and the text behind it. -/
def next? : Text → Option (Lexeme × Text)
  | [] => none
  | c :: rest =>
      let digits := rest.takeWhile isDigit
      if isDigit c || (isSign c && !digits.isEmpty) then
        some (integer (c :: digits), rest.dropWhile isDigit)
      else if isLetter c then some (name c, rest)
      else (Operator.ofChar? c).map fun op => (operator op, rest)

theorem length_of_next?_eq_some
    {t rest : Text} {lexeme : Lexeme}
    (h : next? t = some (lexeme, rest)) :
    rest.length < t.length := by
  cases t with
  | nil => simp [next?] at h
  | cons c t =>
      simp only [next?] at h
      have hd : (t.dropWhile isDigit).length ≤ t.length :=
        (List.dropWhile_sublist isDigit).length_le
      split at h
      · simp only [Option.some.injEq, Prod.mk.injEq] at h
        rw [← h.2, List.length_cons]
        omega
      · split at h
        · simp only [Option.some.injEq, Prod.mk.injEq] at h
          simp [h.2]
        · cases ho : Operator.ofChar? c with
          | none => simp [ho] at h
          | some op =>
              simp only [ho, Option.map_some, Option.some.injEq, Prod.mk.injEq] at h
              simp [h.2]

/-- The lexemes of a text in order, if it consists of lexemes. -/
def scan? (t : Text) : Option (List Lexeme) :=
  match t with
  | [] => some []
  | c :: t' =>
      match _h : next? (c :: t') with
      | none => none
      | some (lexeme, rest) => (scan? rest).map (lexeme :: ·)
termination_by t.length
decreasing_by exact length_of_next?_eq_some _h

end Lexeme

end ReversePolish
