import ReversePolish.Association
import ReversePolish.Disk.Path
import ReversePolish.Text.Utf8

/-!
# Disks

A disk holds files and folders, each at a location: the names on the way from
the root.  The root is a folder.  One folder is the current one, where paths
start that are not anchored.

A path that holds the character NUL is not even looked at.  Any other is
followed part by part.  Every place that is left on the way has to be a folder,
and no name may be longer than a folder can hold.  What then stands at the end
decides whether it can be read, removed or replaced; each refusal has one
`Error`.
-/

namespace ReversePolish

/-- The names on the way from the root to a place, its own the last. -/
abbrev Location := List Text

/-- What stands at a location. -/
inductive Entry where
  | file (content : List UInt8)
  | folder
deriving DecidableEq, Repr

/-- Files and folders, and the current folder. -/
structure Disk where
  entries : List (Location × Entry)
  here : Location
deriving DecidableEq, Repr

namespace Disk

/-- Why an operation on a disk is refused. -/
inductive Error where
  | noEntry
  | busy
  | alreadyExists
  | notFolder
  | isFolder
  | nameTooLong
  /-- The path holds the character NUL. -/
  | nulInPath
deriving DecidableEq, Repr

namespace Error

/-- The number by which a refusal is known, if it comes from the disk itself. -/
def number? : Error → Option Nat
  | noEntry => some 2
  | busy => some 16
  | alreadyExists => some 17
  | notFolder => some 20
  | isFolder => some 21
  | nameTooLong => some 36
  | nulInPath => none

/-- A refusal in words. -/
def message : Error → Text
  | noEntry => "No such file or directory".toList
  | busy => "Device or resource busy".toList
  | alreadyExists => "File exists".toList
  | notFolder => "Not a directory".toList
  | isFolder => "Is a directory".toList
  | nameTooLong => "File name too long".toList
  | nulInPath => "embedded null byte".toList

end Error

/-- The greatest number of bytes in the name of a file or folder. -/
def nameLimit : Nat := 255

/-- The greatest number of bytes in a written path. -/
def pathLimit : Nat := 4095

/-- What stands at a location. -/
def entryAt? (d : Disk) (place : Location) : Option Entry :=
  if place.isEmpty then some .folder else Association.find? place d.entries

/-- Puts an entry at a location. -/
def put (d : Disk) (place : Location) (entry : Entry) : Disk :=
  { d with entries := Association.put place entry d.entries }

/-- Takes away what stands at a location. -/
def erase (d : Disk) (place : Location) : Disk :=
  { d with entries := Association.erase place d.entries }

/-- The location where a path starts. -/
def start (d : Disk) (p : Path) : Location :=
  match p.anchor with
  | .here => d.here
  | .root | .doubleRoot => []

/-- Where one part of a path leads. -/
def next (place : Location) (part : Text) : Location :=
  if part = Path.up then place.dropLast else place ++ [part]

/-- Where a path leads when nothing on the way is looked at. -/
def locate (d : Disk) (p : Path) : Location :=
  p.parts.foldl next (d.start p)

/-- Where parts lead from a place, if every place on the way is a folder. -/
def follow (d : Disk) (place : Location) : List Text → Except Error Location
  | [] => .ok place
  | part :: rest =>
      match d.entryAt? place with
      | none => .error .noEntry
      | some (.file _) => .error .notFolder
      | some .folder =>
          if nameLimit < Text.Utf8.size part then .error .nameTooLong
          else d.follow (next place part) rest

/-- Where a path leads that the disk looks at, if it can be followed. -/
def walk (d : Disk) (p : Path) : Except Error Location :=
  if pathLimit < Text.Utf8.size p.toText then .error .nameTooLong
  else d.follow (d.start p) p.parts

/-- Where a path leads, if it can be followed. -/
def reach (d : Disk) (p : Path) : Except Error Location :=
  if p.HoldsNul then .error .nulInPath else d.walk p

/-- What stands where a path leads. -/
def find (d : Disk) (p : Path) : Except Error Entry := do
  match d.entryAt? (← d.reach p) with
  | none => throw .noEntry
  | some entry => return entry

/-- Whether anything stands where a path leads. -/
def isPresent (d : Disk) (p : Path) : Except Error Bool :=
  match d.find p with
  | .ok _ => .ok true
  | .error .noEntry | .error .notFolder | .error .nulInPath => .ok false
  | .error e => .error e

/-- The content of the file to which a path leads. -/
def read (d : Disk) (p : Path) : Except Error (List UInt8) := do
  match ← d.find p with
  | .folder => throw .isFolder
  | .file content => return content

/-- The location of the file to which a path leads, to be removed. -/
def removable (d : Disk) (p : Path) : Except Error Location := do
  let place ← d.reach p
  if p.endsInName then
    match d.entryAt? place with
    | none => throw .noEntry
    | some .folder => throw .isFolder
    | some (.file _) => return place
  else throw .isFolder

/-- The location to which a path leads, to be taken by a file. -/
def replaceable (d : Disk) (p : Path) : Except Error Location := do
  let place ← d.reach p
  if p.endsInName then
    match d.entryAt? place with
    | some .folder => throw .isFolder
    | _ => return place
  else throw .busy

@[simp] theorem entryAt?_root
    (d : Disk) :
    d.entryAt? [] = some .folder := rfl

theorem entryAt?_put_self
    (d : Disk) {place : Location} (entry : Entry)
    (h : place ≠ []) :
    (d.put place entry).entryAt? place = some entry := by
  simp [entryAt?, put, h]

theorem entryAt?_put_of_ne
    (d : Disk) {place other : Location} (entry : Entry)
    (h : other ≠ place) :
    (d.put place entry).entryAt? other = d.entryAt? other := by
  simp [entryAt?, put, Association.find?_put_of_ne entry d.entries h]

theorem entryAt?_erase_of_ne
    (d : Disk) {place other : Location}
    (h : other ≠ place) :
    (d.erase place).entryAt? other = d.entryAt? other := by
  simp [entryAt?, erase, Association.find?_erase_of_ne d.entries h]

/-- A path that can be followed leads where it points. -/
theorem follow_eq_ok
    {d : Disk} {place reached : Location} {parts : List Text}
    (h : d.follow place parts = .ok reached) :
    reached = parts.foldl next place := by
  induction parts generalizing place with
  | nil =>
      simp only [follow, Except.ok.injEq] at h
      simp [h]
  | cons part rest ih =>
      simp only [follow] at h
      split at h
      · simp at h
      · simp at h
      · split at h
        · simp at h
        · exact ih h

end Disk

end ReversePolish
