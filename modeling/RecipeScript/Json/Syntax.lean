import RecipeScript.Json.Escape
import RecipeScript.Json.Numeral

/-!
# JSON syntax trees

A `Json` is what a text was found to hold, with nothing interpreted yet: strings and numerals as they are written, the
members of an object in their order, repeated names included.

Texts that stop being JSON somewhere have a tree too. It holds all that comes before the fault, and marks the place:
a value that cannot be read is `fault`, and a list or an object that is not properly closed says so. Nothing after the
first fault is in the tree. This is what lets a decoder answer with the *first* thing that is wrong: it walks the tree
in the order of the text and stops at a wrong value or at a fault, whichever it meets first.

A tree can be `isBroken`, with a fault somewhere, and it can be `isSound`, which is stronger than not broken: then
every string has a text, every numeral is a number, and lists and objects are not nested too deeply.
-/

namespace RecipeScript

/-- What a text was found to hold. -/
inductive Json where
  | null
  | bool (value : Bool)
  | number (numeral : Numeral)
  /-- A string, piece by piece. -/
  | string (pieces : List StringPiece)
  /-- A list, and whether it is properly closed. -/
  | array (items : List Json) (closed : Bool)
  /-- An object, whose names are kept piece by piece as well, and whether it is properly closed. -/
  | object (members : List (List StringPiece × Json)) (closed : Bool)
  /-- A place where no value can be read. -/
  | fault

namespace Json

/-- Whether reading stopped inside this value. A fault deep inside leaves everything around it unclosed, so it shows at
the outside. -/
def isBroken : Json → Bool
  | array _ closed => !closed
  | object _ closed => !closed
  | fault => true
  | _ => false

mutual

/-- Whether a value can be taken in whole, where `depth` bounds how deeply lists and objects may be nested in it. -/
def isSound (depth : Nat) : Json → Bool
  | null => true
  | bool _ => true
  | number numeral => numeral.isFinite
  | string pieces => (textOfPieces? pieces).isSome
  | array items closed => closed && match depth with
    | 0 => false
    | depth + 1 => areSoundItems depth items
  | object members closed => closed && match depth with
    | 0 => false
    | depth + 1 => areSoundMembers depth members
  | fault => false

/-- Whether all items of a list are sound. -/
def areSoundItems (depth : Nat) : List Json → Bool
  | [] => true
  | item :: items => item.isSound depth && areSoundItems depth items

/-- Whether all members of an object are sound, names included. -/
def areSoundMembers (depth : Nat) : List (List StringPiece × Json) → Bool
  | [] => true
  | (name, value) :: members =>
    (textOfPieces? name).isSome && value.isSound depth && areSoundMembers depth members

end

/-! ## Building values -/

/-- A text as a JSON string. -/
def ofText (text : String) : Json :=
  string (piecesOfText text.toList)

/-- A natural number as a JSON number. -/
def ofNat (n : Nat) : Json :=
  number (Numeral.ofNat n)

/-- A list of values. -/
def ofList (items : List Json) : Json :=
  array items true

/-- An object with the given members. -/
def ofMembers (members : List (String × Json)) : Json :=
  object (members.map fun (name, value) => (piecesOfText name.toList, value)) true

end Json

end RecipeScript
