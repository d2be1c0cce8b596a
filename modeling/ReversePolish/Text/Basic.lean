/-!
# Text

Everything a calculation reads, keeps and writes is text: the words of an
expression, the entries of the stack, the names and values of variables and
all messages.  A text is the list of its characters, so that functions on it
are recursions on lists.

The module also holds the hexadecimal spelling of a number, which quoted
texts and documents share.
-/

namespace ReversePolish

/-- A text is the list of its characters. -/
abbrev Text := List Char

namespace Text

/-- The given pieces in order, each closed by a line feed. -/
def lines (pieces : List Text) : Text :=
  pieces.flatMap (· ++ ['\n'])

/-- The last `width` hexadecimal digits of a number, in lower case. -/
def hexadecimal : (width : Nat) → Nat → Text
  | 0, _ => []
  | width + 1, n => hexadecimal width (n / 16) ++ [Nat.digitChar (n % 16)]

@[simp] theorem lines_nil : lines [] = [] := rfl

@[simp] theorem lines_cons
    (piece : Text) (pieces : List Text) :
    lines (piece :: pieces) = piece ++ '\n' :: lines pieces := by
  simp [lines]

/-- Between pieces that are joined, the separator stands before each but the first. -/
theorem intercalate_cons
    (separator first : Text) (rest : List Text) :
    separator.intercalate (first :: rest) = first ++ rest.flatMap (separator ++ ·) := by
  induction rest generalizing first with
  | nil => simp
  | cons second rest ih => simp [ih]

end Text

end ReversePolish
