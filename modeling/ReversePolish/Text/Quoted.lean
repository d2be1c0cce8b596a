import ReversePolish.Text.Printable

/-!
# Quoted text

Messages show foreign text between quotes, so that it can be told from the
message around it.  Single quotes are used unless the text holds a single
quote and no double quote.  Inside, the backslash and the quote in use are
preceded by a backslash, line feed, carriage return and tab have names, and
whatever is not printable is spelled by its number, in two, four or eight
hexadecimal digits.

Documents may hold halves of surrogate pairs, which are not characters.  The
quoted form therefore takes symbols: a character, or such a half.
-/

namespace ReversePolish
namespace Text

/-- An element of foreign text: a character or an unpaired surrogate. -/
inductive Symbol where
  | char (c : Char)
  | surrogate (code : Nat)
deriving DecidableEq, Repr

namespace Symbol

/-- The number of a symbol. -/
def code : Symbol → Nat
  | char c => c.toNat
  | surrogate code => code

/-- The characters of symbols, if none of them is a surrogate. -/
def toText? : List Symbol → Option Text
  | [] => some []
  | char c :: rest => (toText? rest).map (c :: ·)
  | surrogate _ :: _ => none

/-- Text as a list of symbols. -/
def ofText (t : Text) : List Symbol :=
  t.map char

@[simp] theorem toText?_ofText
    (t : Text) :
    toText? (ofText t) = some t := by
  induction t with
  | nil => rfl
  | cons c t ih => simpa [ofText, toText?] using ih

end Symbol

namespace Quoted

/-- The apostrophe, the quote of first choice. -/
def single : Char := '\x27'

/-- The quotation mark, used around text that holds apostrophes only. -/
def double : Char := '\x22'

/-- The backslash, which precedes what is not shown as it stands. -/
def backslash : Char := '\x5c'

/-- The number of a symbol after a backslash, in the shortest of three widths. -/
def numbered (code : Nat) : Text :=
  if code < 0x100 then backslash :: 'x' :: hexadecimal 2 code
  else if code < 0x10000 then backslash :: 'u' :: hexadecimal 4 code
  else backslash :: 'U' :: hexadecimal 8 code

/-- How a symbol stands between quotes of the given kind. -/
def shown (quote : Char) : Symbol → Text
  | .surrogate code => numbered code
  | .char c =>
      if c = quote ∨ c = backslash then [backslash, c]
      else if c = '\n' then [backslash, 'n']
      else if c = '\r' then [backslash, 'r']
      else if c = '\t' then [backslash, 't']
      else if Printable.isPrintable c then [c]
      else numbered c.toNat

/-- The quote to put around symbols. -/
def quoteFor (symbols : List Symbol) : Char :=
  if symbols.contains (.char single) && !symbols.contains (.char double) then double
  else single

/-- Symbols between quotes. -/
def ofSymbols (symbols : List Symbol) : Text :=
  let quote := quoteFor symbols
  quote :: (symbols.flatMap (shown quote) ++ [quote])

/-- Text between quotes. -/
def ofText (t : Text) : Text :=
  ofSymbols (Symbol.ofText t)

end Quoted
end Text
end ReversePolish
