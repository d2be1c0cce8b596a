import ReversePolish.Text.Basic

/-!
# The stack

The stack holds texts, the top first.  What stands on it is kept as it was
written, so that `007` stays `007`.
-/

namespace ReversePolish

/-- The entries of the stack, the top first. -/
structure Stack where
  entries : List Text
deriving DecidableEq, Repr

namespace Stack

/-- The stack without entries. -/
def empty : Stack := ⟨[]⟩

instance : EmptyCollection Stack := ⟨empty⟩

/-- Whether a stack has no entries. -/
def isEmpty (s : Stack) : Bool :=
  s.entries.isEmpty

/-- The number of entries. -/
def size (s : Stack) : Nat :=
  s.entries.length

/-- Puts an entry on top. -/
def push (s : Stack) (entry : Text) : Stack :=
  ⟨entry :: s.entries⟩

/-- The top entry and the stack below it, unless the stack is empty. -/
def pop? (s : Stack) : Option (Text × Stack) :=
  match s.entries with
  | [] => none
  | top :: below => some (top, ⟨below⟩)

/-- The entries from the bottom to the top. -/
def toList (s : Stack) : List Text :=
  s.entries.reverse

/-- The stack of the given entries, the last of them on top. -/
def ofList (entries : List Text) : Stack :=
  ⟨entries.reverse⟩

/-- The stack as it is displayed, the top first, between brackets. -/
def render (s : Stack) : Text :=
  "[ ".toList ++ s.entries.flatMap (· ++ [' ']) ++ [']']

@[simp] theorem toList_ofList
    (entries : List Text) :
    (ofList entries).toList = entries := by
  simp [ofList, toList]

@[simp] theorem ofList_toList
    (s : Stack) :
    ofList s.toList = s := by
  simp [ofList, toList]

@[simp] theorem toList_push
    (s : Stack) (entry : Text) :
    (s.push entry).toList = s.toList ++ [entry] := by
  simp [push, toList]

@[simp] theorem pop?_push
    (s : Stack) (entry : Text) :
    (s.push entry).pop? = some (entry, s) := rfl

end Stack

end ReversePolish
