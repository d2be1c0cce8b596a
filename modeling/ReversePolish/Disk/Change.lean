import ReversePolish.Disk.Basic

/-!
# Changes of a disk

Whatever is done to a disk is a list of changes, each of which happens as a
whole.  `apply` says what a change makes of a disk.

A file is saved by way of a temporary file in the same folder, which takes the
place of the file once it is complete.  So at every moment the file has either
its former content or the new one.  The name of the temporary file is that of
the file with a tag of eight characters and an ending behind it.  Its folder is
that of the file, worked out from the path alone, so that no part is left
behind which two points lead out of again.
-/

namespace ReversePolish

/-- A change of a disk. -/
inductive Change where
  /-- An empty file appears at a location. -/
  | create (place : Location)
  | write (place : Location) (content : List UInt8)
  /-- A file moves to a location and takes the place of what was there. -/
  | rename (source target : Location)
  | remove (place : Location)
deriving DecidableEq, Repr

/-- Changes in their order, and the refusal that ended them. -/
structure Changes where
  made : List Change
  error? : Option Disk.Error
deriving DecidableEq, Repr

namespace Disk

/-- What a change makes of a disk. -/
def apply (d : Disk) : Change → Disk
  | .create place => d.put place (.file [])
  | .write place content => d.put place (.file content)
  | .rename source target =>
      match d.entryAt? source with
      | none => d
      | some entry => (d.erase source).put target entry
  | .remove place => d.erase place

/-- What changes make of a disk, one after the other. -/
def applyAll (d : Disk) (changes : List Change) : Disk :=
  changes.foldl apply d

/-! ### Temporary files -/

/-- The characters of tags. -/
def tagAlphabet : Text :=
  "abcdefghijklmnopqrstuvwxyz0123456789_".toList

/-- The number of characters in a tag. -/
def tagLength : Nat := 8

/-- The number of different tags. -/
def tagCount : Nat :=
  Nat.pow tagAlphabet.length tagLength

/-- The last characters of a number written in the alphabet of tags. -/
def spelled : (width : Nat) → Nat → Text
  | 0, _ => []
  | width + 1, n =>
      spelled width (n / tagAlphabet.length) ++
        [tagAlphabet.getD (n % tagAlphabet.length) '_']

/-- The tag of a number. -/
def tag (n : Nat) : Text :=
  spelled tagLength n

/-- What stands behind the name of a file in the name of its temporary file. -/
def temporaryEnding (n : Nat) : Text :=
  '.' :: tag n ++ ".tmp".toList

/-- The location of the temporary file for a path, under the tag of a number. -/
def temporary (d : Disk) (p : Path) (n : Nat) : Location :=
  d.locate p.parent ++ [p.name ++ temporaryEnding n]

/-- The path under which the temporary file is made; it keeps two slashes at the start. -/
def temporaryPath (d : Disk) (p : Path) (n : Nat) : Path where
  anchor := if p.anchor = .doubleRoot then .doubleRoot else .root
  parts := d.temporary p n

/-- A path with its folder worked out from the parts alone. -/
def workedOut (p : Path) : Path :=
  { p with parts := p.parent.parts.foldl next [] ++ [p.name] }

/-- Whether the temporary file for a path can be made. -/
def creatable (d : Disk) (p : Path) (n : Nat) : Except Error Unit := do
  if (workedOut p).HoldsNul then throw .nulInPath
  match d.entryAt? (← d.walk (d.temporaryPath p n)) with
  | some _ => throw .alreadyExists
  | none => return ()

/-- Whether the name of something on a disk ends as that of a temporary file. -/
def isTaken (d : Disk) (n : Nat) : Bool :=
  d.entries.any fun (place, _) => (temporaryEnding n).isSuffixOf (place.getLast?.getD [])

/-- A number whose tag is not in use; of so many, each name can use up only one. -/
def freshTag (d : Disk) : Nat :=
  ((List.range (d.entries.length + 1)).find? fun n => !d.isTaken n).getD 0

/-! ### Saving and removing files -/

/-- Saves a file under a path. -/
def saving (d : Disk) (p : Path) (n : Nat) (content : List UInt8) : Changes :=
  let place := d.temporary p n
  match d.creatable p n with
  | .error e => ⟨[], some e⟩
  | .ok () =>
      match (d.apply (.create place)).replaceable p with
      | .error e => ⟨[.create place, .write place content, .remove place], some e⟩
      | .ok target => ⟨[.create place, .write place content, .rename place target], none⟩

/-- Removes the file to which a path leads. -/
def removing (d : Disk) (p : Path) : Changes :=
  match d.removable p with
  | .error e => ⟨[], some e⟩
  | .ok place => ⟨[.remove place], none⟩

@[simp] theorem length_spelled
    (width n : Nat) :
    (spelled width n).length = width := by
  induction width generalizing n with
  | zero => rfl
  | succ width ih => simp [spelled, ih]

@[simp] theorem length_tag
    (n : Nat) :
    (tag n).length = tagLength :=
  length_spelled tagLength n

@[simp] theorem applyAll_nil
    (d : Disk) :
    d.applyAll [] = d := rfl

@[simp] theorem applyAll_cons
    (d : Disk) (change : Change) (changes : List Change) :
    d.applyAll (change :: changes) = (d.apply change).applyAll changes := rfl

end Disk

end ReversePolish
