import ReversePolish.Association
import ReversePolish.Bindings.Hash
import ReversePolish.Position

/-!
# Bindings of variables

Names are bound to values in five chains.  The hash of a name picks its
chain.  A new name goes to the end of its chain; a name that is already bound
gets its new value where it stands.  The bindings are listed chain by chain,
so their order depends on the hash and, within a chain, on which name came
first.
-/

namespace ReversePolish

/-- Names with their values, in the order in which the names came. -/
abbrev Chain := List (Text × Text)

/-- The bindings of all names, in five chains. -/
structure Bindings where
  chains : Vector Chain Bindings.chainCount
deriving DecidableEq, Repr

namespace Bindings

/-- No name is bound. -/
def empty : Bindings :=
  ⟨Vector.replicate chainCount []⟩

instance : EmptyCollection Bindings := ⟨empty⟩

/-- The chain of a number. -/
def chain (b : Bindings) (i : Fin chainCount) : Chain :=
  b.chains[i]

/-- The chain that an index names. -/
def chainAt? (b : Bindings) (index : Int) : Option Chain :=
  (Position.ofIndex? chainCount index).map b.chain

/-- Binds a name to a value. -/
def insert (b : Bindings) (name value : Text) : Bindings :=
  ⟨b.chains.set (bucket name) (Association.put name value (b.chain (bucket name)))⟩

/-- The value of a name. -/
def find? (b : Bindings) (name : Text) : Option Text :=
  Association.find? name (b.chain (bucket name))

/-- All names with their values, chain by chain. -/
def toList (b : Bindings) : List (Text × Text) :=
  b.chains.toList.flatten

/-- The bindings that arise when the given ones are made one after the other. -/
def ofList (l : List (Text × Text)) : Bindings :=
  l.foldl (fun b (name, value) => b.insert name value) empty

/-- The number of bound names. -/
def size (b : Bindings) : Nat :=
  b.toList.length

/-- A name with its value, as displayed. -/
def renderPair : Text × Text → Text
  | (name, value) => '[' :: (name ++ ": ".toList ++ value ++ [']'])

/-- The bindings as they are displayed: one to a line, between braces. -/
def render (b : Bindings) : Text :=
  ['\n'].intercalate
    (['\x7b'] :: (b.toList.map fun pair => '\t' :: renderPair pair) ++ [['\x7d']])

@[simp] theorem chain_empty
    (i : Fin chainCount) :
    (∅ : Bindings).chain i = [] := by
  simp [chain, EmptyCollection.emptyCollection, empty]

theorem chain_insert_self
    (b : Bindings) (name value : Text) :
    (b.insert name value).chain (bucket name) =
      Association.put name value (b.chain (bucket name)) := by
  simp [chain, insert]

theorem chain_insert_of_ne
    (b : Bindings) {name : Text} (value : Text) {i : Fin chainCount}
    (h : i ≠ bucket name) :
    (b.insert name value).chain i = b.chain i := by
  have hi : (bucket name).val ≠ i.val := fun e => h (Fin.ext e.symm)
  simp [chain, insert, hi]

/-- Bindings are equal when their chains are. -/
theorem ext_chain
    {a b : Bindings}
    (h : ∀ i, a.chain i = b.chain i) :
    a = b := by
  obtain ⟨as⟩ := a
  obtain ⟨bs⟩ := b
  have hab : as = bs := by
    ext1 i hi
    exact h ⟨i, hi⟩
  rw [hab]

@[simp] theorem find?_insert_self
    (b : Bindings) (name value : Text) :
    (b.insert name value).find? name = some value := by
  rw [find?, chain_insert_self, Association.find?_put_self]

theorem find?_insert_of_ne
    (b : Bindings) {name other : Text} (value : Text)
    (h : other ≠ name) :
    (b.insert name value).find? other = b.find? other := by
  by_cases hb : bucket other = bucket name
  · rw [find?, hb, chain_insert_self, Association.find?_put_of_ne value _ h, find?, hb]
  · rw [find?, chain_insert_of_ne b value hb, find?]

end Bindings

end ReversePolish
