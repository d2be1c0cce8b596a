import ReversePolish.Text.Basic

/-!
# The byte hash of a name

A name is hashed one character at a time.  Every sum is cut down to its low
byte, so the hash is a byte; the shifts by ten, eleven and fifteen bits belong
to the mixing as it is known for wider words.  The hash modulo five numbers
the chain in which a name is kept.
-/

namespace ReversePolish
namespace Bindings

/-- The low byte of a number. -/
def lowByte (n : Nat) : Nat :=
  n &&& 0xff

/-- Mixes the number of one character into a hash. -/
def mix (h code : Nat) : Nat :=
  let h := lowByte (h + code)
  let h := lowByte (h + (h <<< 10))
  h ^^^ (h >>> 6)

/-- The last three steps of the hash. -/
def finish (h : Nat) : Nat :=
  let h := lowByte (h + (h <<< 3))
  let h := h ^^^ (h >>> 11)
  lowByte (h + (h <<< 15))

/-- The hash of a sequence of numbers, whether or not they number characters. -/
def hashOfCodes (codes : List Nat) : Nat :=
  finish (codes.foldl mix 0)

/-- The hash of a name. -/
def hash (name : Text) : Nat :=
  hashOfCodes (name.map Char.toNat)

/-- The number of chains. -/
def chainCount : Nat := 5

/-- The number of the chain in which a name is kept. -/
def bucket (name : Text) : Fin chainCount :=
  ⟨hash name % chainCount, Nat.mod_lt _ (by decide)⟩

theorem val_bucket
    (name : Text) :
    (bucket name).val = hash name % chainCount := rfl

end Bindings
end ReversePolish
