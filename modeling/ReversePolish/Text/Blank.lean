import ReversePolish.Text.Basic

/-!
# Blank characters

Two sets of characters count as blank.  Unicode's white space is what may
surround a numeral.  When the end of a line is trimmed, the four ASCII
information separators (1C to 1F) go as well.
-/

namespace ReversePolish
namespace Text

/-- The white space of Unicode 14. -/
def isWhiteSpace (c : Char) : Bool :=
  let n := c.toNat
  (0x09 ≤ n && n ≤ 0x0d) || n == 0x20 || n == 0x85 || n == 0xa0 || n == 0x1680 ||
    (0x2000 ≤ n && n ≤ 0x200a) || n == 0x2028 || n == 0x2029 || n == 0x202f ||
    n == 0x205f || n == 0x3000

/-- The four ASCII information separators. -/
def isInformationSeparator (c : Char) : Bool :=
  0x1c ≤ c.toNat && c.toNat ≤ 0x1f

/-- What the end of a line is trimmed of. -/
def isTrimmed (c : Char) : Bool :=
  isWhiteSpace c || isInformationSeparator c

/-- A text without the blanks at its end. -/
def trimEnd (t : Text) : Text :=
  (t.reverse.dropWhile isTrimmed).reverse

end Text
end ReversePolish
