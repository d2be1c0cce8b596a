import ReversePolish.Text.Basic

/-!
# Flags

A flag has a short form, a letter behind a hyphen, and a long form, a word
behind two.  One of them, `session`, takes a value; the others are switches.
-/

namespace ReversePolish

/-- A flag of the command line. -/
inductive Flag where
  | help
  | session
  | verbose
  | quiet
deriving DecidableEq, Repr

namespace Flag

/-- All flags, in the order in which they are listed. -/
def all : List Flag :=
  [help, session, verbose, quiet]

/-- The letter of the short form. -/
def letter : Flag → Char
  | help => 'h'
  | session => 's'
  | verbose => 'v'
  | quiet => 'q'

/-- The short form. -/
def short (f : Flag) : Text :=
  ['-', f.letter]

/-- The long form. -/
def long : Flag → Text
  | help => "--help".toList
  | session => "--session".toList
  | verbose => "--verbose".toList
  | quiet => "--quiet".toList

/-- Both forms, as messages name a flag. -/
def label (f : Flag) : Text :=
  f.short ++ '/' :: f.long

/-- Whether a flag takes a value. -/
def takesValue : Flag → Bool
  | session => true
  | _ => false

/-- The flag of a letter. -/
def ofLetter? (c : Char) : Option Flag :=
  all.find? fun f => f.letter = c

/-- The flag of which a text is one of the forms, and whether it is the short one. -/
def ofText? (t : Text) : Option (Flag × Bool) :=
  all.findSome? fun f =>
    if t = f.short then some (f, true)
    else if t = f.long then some (f, false)
    else none

@[simp] theorem ofLetter?_letter
    (f : Flag) :
    ofLetter? f.letter = some f := by
  cases f <;> rfl

end Flag

end ReversePolish
