import ReversePolish.Association
import ReversePolish.Decimal.Shortest
import ReversePolish.Numeral.Basic
import ReversePolish.Text.Quoted

/-!
# JSON documents

A document is a value: null, a truth value, an integer or floating-point
number, a string, an array or an object.  A string may hold unpaired
surrogates, since a document can spell them.  The members of an object keep
the order in which their keys first came; a key that comes again replaces the
value where it stands.

`display` shows a value in a message.
-/

namespace ReversePolish

/-- A JSON value. -/
inductive Json where
  | null
  | bool (b : Bool)
  | int (n : Int)
  | float (x : Decimal.Binary64)
  | string (symbols : List Text.Symbol)
  | array (items : List Json)
  | object (members : List (List Text.Symbol × Json))
deriving Repr

namespace Json

/-- The object of the given members; of members with one key the last counts. -/
def ofMembers (members : List (List Text.Symbol × Json)) : Json :=
  object (members.foldl (fun known (key, value) => Association.put key value known) [])

/-- The value of a key. -/
def member? (key : Text) (members : List (List Text.Symbol × Json)) : Option Json :=
  Association.find? (Text.Symbol.ofText key) members

mutual

/-- A value as messages show it. -/
def display : Json → Text
  | null => "None".toList
  | bool true => "True".toList
  | bool false => "False".toList
  | int n => Numeral.ofInt n
  | float x => x.render "inf".toList "nan".toList
  | string symbols => Text.Quoted.ofSymbols symbols
  | array items => '[' :: (displayItems items ++ [']'])
  | object members => '\x7b' :: (displayMembers members ++ ['\x7d'])

/-- The items of an array as messages show them. -/
def displayItems : List Json → Text
  | [] => []
  | [item] => item.display
  | item :: rest => item.display ++ ", ".toList ++ displayItems rest

/-- The members of an object as messages show them. -/
def displayMembers : List (List Text.Symbol × Json) → Text
  | [] => []
  | [(key, value)] => Text.Quoted.ofSymbols key ++ ": ".toList ++ value.display
  | (key, value) :: rest =>
      Text.Quoted.ofSymbols key ++ ": ".toList ++ value.display ++ ", ".toList ++
        displayMembers rest

end

end Json

end ReversePolish
