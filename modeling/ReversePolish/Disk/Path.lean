import ReversePolish.Text.Basic

/-!
# Paths

A path is read as an anchor and parts.  Slashes separate the parts; empty
parts and parts that are a single point say nothing and are dropped, while two
points, which lead to the folder above, stay.  A path that starts with a slash
starts at the root.  Exactly two slashes at the start are kept apart from one,
although they lead to the same place.

A text may hold the character NUL, and then a path does so too; but no disk
takes such a path.
-/

namespace ReversePolish

/-- Where a path starts. -/
inductive Anchor where
  /-- In the current folder. -/
  | here
  | root
  /-- At the root, written with two slashes. -/
  | doubleRoot
deriving DecidableEq, Repr

/-- The way from a starting point to a place on a disk. -/
structure Path where
  anchor : Anchor
  parts : List Text
deriving DecidableEq, Repr

namespace Path

/-- The part that leads to the folder above. -/
def up : Text := ['.', '.']

/-- The pieces of a text between its slashes. -/
def pieces : Text → List Text
  | [] => [[]]
  | c :: rest =>
      if c = '/' then [] :: pieces rest
      else
        match pieces rest with
        | [] => [[c]]
        | piece :: more => (c :: piece) :: more

/-- The anchor that stands at the start of a text. -/
def anchorOf : Text → Anchor
  | '/' :: '/' :: '/' :: _ => .root
  | '/' :: '/' :: _ => .doubleRoot
  | '/' :: _ => .root
  | _ => .here

/-- The path that a text spells. -/
def ofText (t : Text) : Path :=
  ⟨anchorOf t, (pieces t).filter fun piece => piece ≠ [] ∧ piece ≠ ['.']⟩

/-- How an anchor is written. -/
def anchorText : Anchor → Text
  | .here => []
  | .root => ['/']
  | .doubleRoot => ['/', '/']

/-- How a path is written; the current folder is a point. -/
def toText (p : Path) : Text :=
  match anchorText p.anchor ++ ['/'].intercalate p.parts with
  | [] => ['.']
  | t => t

/-- The last part, or nothing in a path without parts. -/
def name (p : Path) : Text :=
  p.parts.getLast?.getD []

/-- The path without its last part. -/
def parent (p : Path) : Path :=
  { p with parts := p.parts.dropLast }

/-- Whether the last part is the name of something in a folder. -/
def endsInName (p : Path) : Bool :=
  match p.parts.getLast? with
  | none => false
  | some part => part ≠ up

/-- A part of the path holds the character NUL. -/
def HoldsNul (p : Path) : Prop :=
  ∃ part ∈ p.parts, '\x00' ∈ part

instance (p : Path) : Decidable p.HoldsNul :=
  inferInstanceAs (Decidable (∃ part ∈ p.parts, '\x00' ∈ part))

end Path

end ReversePolish
