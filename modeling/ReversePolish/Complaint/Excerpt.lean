import ReversePolish.Position
import ReversePolish.Text.Blank

/-!
# Excerpts

An excerpt is the line of an expression with one stretch of it marked.  It is
shown on two lines: the line itself without the blanks at its end, and carets
under the stretch with a caption behind them.  Tabs before the stretch are
repeated below, so that the carets stand where they should.  An empty stretch
gets one caret.
-/

namespace ReversePolish

/-- A line with a stretch of it and what there is to say about the stretch. -/
structure Excerpt where
  line : Text
  /-- The number of characters before the stretch. -/
  start : Nat
  width : Nat
  caption : Text
deriving DecidableEq, Repr

namespace Excerpt

/-- The words of an expression on a line. -/
def joined (words : List Text) : Text :=
  [' '].intercalate words

/-- The number of characters of words and the blanks behind them. -/
def extent : List Text → Nat
  | [] => 0
  | word :: rest => word.length + 1 + extent rest

/-- The line of an expression with the word marked that an index names. -/
def ofWord? (words : List Text) (index : Int) (caption : Text) : Option Excerpt :=
  (Position.ofIndex? words.length index).map fun (position : Fin words.length) =>
    ⟨joined words, extent (words.take position), (words.get position).length, caption⟩

/-- What stands before the line and, as blanks, before the carets. -/
def margin : Text := " >>> ".toList

/-- What stands under a character before the stretch. -/
def under (c : Char) : Char :=
  if c = '\t' then '\t' else ' '

/-- The number of carets. -/
def carets (e : Excerpt) : Nat :=
  max 1 (min e.width (e.line.length - e.start))

/-- An excerpt as it is shown. -/
def toText (e : Excerpt) : Text :=
  margin ++ Text.trimEnd e.line ++ '\n' ::
    (margin.map under ++ (e.line.take e.start).map under ++
      List.replicate e.carets '^' ++ ' ' :: e.caption)

end Excerpt

end ReversePolish
