import ReversePolish.Text.Basic

/-!
# Decimal digits of all scripts

The decimal digits of Unicode 14 stand in runs of ten consecutive characters,
from the digit zero to the digit nine.  `zeros` lists the first character of
every run, so the value of a digit is its distance from the zero of its run.

The first run is that of the ASCII digits; `value?_of_ascii` says so.
-/

namespace ReversePolish
namespace Text
namespace DecimalDigit

/-- The characters with the decimal value zero, in ascending order. -/
def zeros : List Nat :=
  [0x0030, 0x0660, 0x06f0, 0x07c0, 0x0966, 0x09e6, 0x0a66, 0x0ae6, 0x0b66, 0x0be6,
    0x0c66, 0x0ce6, 0x0d66, 0x0de6, 0x0e50, 0x0ed0, 0x0f20, 0x1040, 0x1090, 0x17e0,
    0x1810, 0x1946, 0x19d0, 0x1a80, 0x1a90, 0x1b50, 0x1bb0, 0x1c40, 0x1c50, 0xa620,
    0xa8d0, 0xa900, 0xa9d0, 0xa9f0, 0xaa50, 0xabf0, 0xff10, 0x104a0, 0x10d30, 0x11066,
    0x110f0, 0x11136, 0x111d0, 0x112f0, 0x11450, 0x114d0, 0x11650, 0x116c0, 0x11730,
    0x118e0, 0x11950, 0x11c50, 0x11d50, 0x11da0, 0x16a60, 0x16ac0, 0x16b50, 0x1d7ce,
    0x1d7d8, 0x1d7e2, 0x1d7ec, 0x1d7f6, 0x1e140, 0x1e2f0, 0x1e950, 0x1fbf0]

/-- The value of a decimal digit of any script, or nothing for any other character. -/
def value? (c : Char) : Option Nat :=
  (zeros.find? fun z => z ≤ c.toNat && c.toNat < z + 10).map (c.toNat - ·)

/-- A decimal digit of some script. -/
def isDigit (c : Char) : Bool :=
  (value? c).isSome

/-- The ASCII digits have their usual values. -/
theorem value?_of_ascii
    (c : Char)
    (low : 0x30 ≤ c.toNat)
    (high : c.toNat < 0x3a) :
    value? c = some (c.toNat - 0x30) := by
  simp [value?, zeros, low, high]

end DecimalDigit
end Text
end ReversePolish
