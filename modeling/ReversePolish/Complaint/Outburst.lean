import ReversePolish.Text.Basic

/-!
# Outbursts

Complaints open with an outburst, which is put together by chance from a
particle, an oath and a resignation.  Chance is a supply of numbers: `Picks`
holds some numbers, to be used over and over in their order, and how many were
used.  A number picks from a list by its remainder.
-/

namespace ReversePolish

/-- Numbers to pick with, and how often one was picked. -/
structure Picks where
  numbers : List Int
  used : Nat
deriving DecidableEq, Repr

namespace Picks

/-- The number that is next. -/
def current (p : Picks) : Int :=
  p.numbers.getD (p.used % p.numbers.length) 0

/-- Picks one of the options, the first if the number is zero. -/
def pick (p : Picks) (options : List Text) : Text × Picks :=
  (options.getD (p.current % options.length).toNat [], { p with used := p.used + 1 })

end Picks

namespace Outburst

/-- What an outburst starts with. -/
def particles : List Text :=
  ["Oh, ", "Well, ", "Aw, ", "", ""].map String.toList

/-- The oaths, all of them mild. -/
def oaths : List Text :=
  ["Ack", "ARGH", "Blargh", "Confound it", "Crud", "Curses", "Crikey", "Dag Nabbit",
    "Drat", "Fiddlesticks", "Good Grief", "Great Scott", "Heavens", "Nuts",
    "Rats"].map String.toList

/-- What an outburst ends with. -/
def resignations : List Text :=
  ["The stack is not what it seemed.", "I cannot continue.",
    "I have no idea what the right answer is.",
    "Those numbers will not add up."].map String.toList

/-- An outburst, and the picks that are left. -/
def utter (p : Picks) : Text × Picks :=
  let (particle, p) := p.pick particles
  let (oath, p) := p.pick oaths
  let (resignation, p) := p.pick resignations
  (particle ++ oath ++ "! ".toList ++ resignation, p)

end Outburst
end ReversePolish
