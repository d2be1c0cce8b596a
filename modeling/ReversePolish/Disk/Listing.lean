import ReversePolish.Disk.Basic

/-!
# Making up and listing a disk

`furnish` makes a folder together with the folders on the way to it, and
`bare` is the disk on which nothing is but the current folder.  `listing` shows
what lies below the current folder, in the order of the ways there as they are
written.  The slash that closes the way to a folder takes part in the order.
-/

namespace ReversePolish
namespace Disk

/-- The non-empty initial parts of a location, the shortest first. -/
def waypoints (place : Location) : List Location :=
  (List.range place.length).map fun n => place.take (n + 1)

/-- Puts a folder at a location where nothing is. -/
def supply (d : Disk) (place : Location) : Disk :=
  if (d.entryAt? place).isSome then d else d.put place .folder

/-- Makes a folder and those on the way to it, as far as they are missing. -/
def furnish (d : Disk) (place : Location) : Disk :=
  (waypoints place).foldl supply d

/-- The disk that holds the current folder and nothing in it. -/
def bare (here : Location) : Disk :=
  furnish ⟨[], here⟩ here

/-- The way from one location to another that lies below it. -/
def below? : (folder place : Location) → Option Location
  | [], part :: rest => some (part :: rest)
  | _, [] => none
  | a :: folder, b :: place => if a = b then below? folder place else none

/-- The order of texts by the numbers of their characters. -/
def textPrecedes : Text → Text → Bool
  | [], _ => true
  | _ :: _, [] => false
  | a :: s, b :: t => a < b || (a == b && textPrecedes s t)

/-- The way to an entry as it is listed; that to a folder ends in a slash. -/
def listedAs (way : Location) : Entry → Text
  | .file _ => ['/'].intercalate way
  | .folder => ['/'].intercalate way ++ ['/']

/-- What lies below the current folder, under the listed ways there, in their order. -/
def listing (d : Disk) : List (Text × Entry) :=
  (d.entries.filterMap fun (place, entry) =>
    (below? d.here place).map fun way => (listedAs way entry, entry)).mergeSort
      fun a b => textPrecedes a.1 b.1

end Disk
end ReversePolish
