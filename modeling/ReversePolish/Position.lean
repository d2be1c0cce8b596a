/-!
# Positions

An element of a list may be named by an index that counts from the start, or,
if it is negative, by one that counts from the end.
-/

namespace ReversePolish
namespace Position

/-- The position that an index names among `size` elements, if it names one. -/
def ofIndex? (size : Nat) (index : Int) : Option (Fin size) :=
  let position := if index < 0 then index + size else index
  if h : 0 ≤ position ∧ position < size then some ⟨position.toNat, by omega⟩ else none

/-- The position of an index that counts from the start is the index itself. -/
theorem ofIndex?_natCast
    {size n : Nat}
    (h : n < size) :
    ofIndex? size n = some ⟨n, h⟩ := by
  simp [ofIndex?, h, show ¬ (n : Int) < 0 by omega]

end Position
end ReversePolish
