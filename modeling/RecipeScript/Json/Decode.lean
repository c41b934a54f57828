import RecipeScript.Json.Reader
import RecipeScript.Text.Quoted
import RecipeScript.Vocabulary

/-!
# From JSON to values

A decoder turns a syntax tree into a value of the library, or says what is wrong first. "First" is in the order of the
text, and malformed JSON competes with wrong values: a wrong value that stands before the place where the text breaks
is what gets reported.

Some values are decoded **in passing**, as soon as they are met: then a value of a wrong type is wrong whatever comes
after its first character. Others have to be **held** until all of the object around them has been seen, because how to
decode them depends on a member that may come last. What is held has been taken in whole, so it has to be sound, and
its decoder meets wrong values only.
-/

namespace RecipeScript

/-- What is wrong with a text as a value of some type. -/
inductive JsonError where
  /-- The text is not JSON, or not of a form that can be decoded at all. -/
  | malformed
  | missingField (name : String)
  | duplicateField (name : String)
  /-- A word is none of those that may stand in its place. -/
  | unknownWord (word : String) (expected : List String)
  | wrongType
  | wrongValue
  | wrongLength
  /-- A text is no duration. -/
  | notWholeNumber (text : String)
deriving DecidableEq, Repr

namespace JsonError

/-- A word between the marks that messages use. -/
private def marked (word : String) : String :=
  "`" ++ word ++ "`"

/-- A list of alternatives in words. -/
def alternatives : List String → String
  | [a, b] => marked a ++ " or " ++ marked b
  | [a] => marked a
  | words => "one of " ++ ", ".intercalate (words.map marked)

/-- The error in words; a text that is not JSON has none. -/
def message? : JsonError → Option String
  | malformed => none
  | missingField name => some ("missing field " ++ marked name)
  | duplicateField name => some ("duplicate field " ++ marked name)
  | unknownWord word expected =>
    some ("unknown variant " ++ marked word ++ ", expected " ++ alternatives expected)
  | wrongType => some "invalid type"
  | wrongValue => some "invalid value"
  | wrongLength => some "invalid length"
  | notWholeNumber text => some ("not a whole number: " ++ quoted text)

end JsonError

/-- A decoded value, or what is wrong first. -/
abbrev Decoded := Except JsonError

namespace Json

/-! ## Plain values -/

/-- What is wrong with a value that stands where another type is wanted. -/
def mismatch : Json → JsonError
  | number numeral => if numeral.isFinite then .wrongType else .malformed
  | string pieces => if (textOfPieces? pieces).isSome then .wrongType else .malformed
  | fault => .malformed
  | _ => .wrongType

/-- The text of a string that has to have one. -/
def textOf (pieces : List StringPiece) : Decoded String :=
  match textOfPieces? pieces with
  | some text => .ok (String.ofList text)
  | none => .error .malformed

/-- Decodes a text. -/
def decodeText : Json → Decoded String
  | string pieces => textOf pieces
  | value => .error value.mismatch

/-- Decodes a truth value. -/
def decodeBool : Json → Decoded Bool
  | bool value => .ok value
  | value => .error value.mismatch

/-- Decodes a natural number below 2⁶⁴. -/
def decodeNat : Json → Decoded Nat
  | number numeral =>
    match numeral.natural? with
    | some n => .ok n
    | none => .error (if numeral.isNegativeInteger then .wrongValue else (number numeral).mismatch)
  | value => .error value.mismatch

/-! ## Words of a vocabulary -/

/-- Looks up a word. -/
def lookUp {α : Type} [Vocabulary α] (word : String) : Decoded α :=
  match Vocabulary.ofName? word with
  | some a => .ok a
  | none => .error (.unknownWord word (Vocabulary.names α))

/-- Decodes a word in passing. A word is a string, or an object whose one member has the word for its name and is null. -/
def decodeWord {α : Type} [Vocabulary α] : Json → Decoded α
  | string pieces => do lookUp (← textOf pieces)
  | object ((name, value) :: others) closed => do
    let a ← lookUp (← textOf name)
    match value with
    | null => if others.isEmpty && closed then .ok a else .error .malformed
    | value => .error value.mismatch
  | _ => .error .malformed

/-- Whether a value says nothing: null, or an object without members. -/
def isNothing : Json → Bool
  | null => true
  | object [] _ => true
  | _ => false

/-- Decodes a word that was held. -/
def decodeHeldWord {α : Type} [Vocabulary α] : Json → Decoded α
  | string pieces => do lookUp (← textOf pieces)
  | object [(name, value)] _ => do
    let a ← lookUp (← textOf name)
    if value.isNothing then .ok a else .error .wrongType
  | object _ _ => .error .wrongValue
  | _ => .error .wrongType

/-! ## Objects -/

/-- How deeply lists and objects may be nested inside a value that is held. -/
def heldDepth : Nat := 126

/-- Takes a value in whole. -/
def hold (value : Json) : Decoded Json :=
  if value.isSound heldDepth then .ok value else .error .malformed

/-- Demands that a list or an object is properly closed. -/
def demandClosed (closed : Bool) : Decoded Unit :=
  if closed then .ok () else .error .malformed

/-- Decodes the one member of the given name in passing and holds all others. The flag tells whether the member has
been met before. -/
def takeMember {α : Type} (field : String) (decode : Json → Decoded α) (met : Bool) :
    List (List StringPiece × Json) → Decoded (Option α × List (List StringPiece × Json))
  | [] => .ok (none, [])
  | (name, value) :: members => do
    if (← textOf name) = field then
      if met then throw (.duplicateField field)
      let a ← decode value
      let (_, held) ← takeMember field decode true members
      return (some a, held)
    else
      let value ← hold value
      let (found, held) ← takeMember field decode met members
      return (found, (name, value) :: held)

/-- The value of a field that has to be there. -/
def demand {α : Type} (field : String) : Option α → Decoded α
  | some a => .ok a
  | none => .error (.missingField field)

/-- Fills the place of a field that may come only once. -/
def fill {α : Type} (field : String) (place : Option α) (decoded : Decoded α) : Decoded (Option α) :=
  match place with
  | some _ => .error (.duplicateField field)
  | none => some <$> decoded

/-! ## Texts -/

/-- Decodes a whole text. What follows the value is looked at last. -/
def decodeWhole {α : Type} (decode : Json → Decoded α) (text : String) : Decoded α := do
  let (value, complete) := read text
  let a ← decode value
  if complete then return a else throw .malformed

end Json

end RecipeScript
