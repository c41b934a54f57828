import RecipeScript.Json.Syntax

/-!
# Writing JSON

Two layouts of the same value. `compact` puts everything on one line with no blanks at all. `pretty` gives every item and
every member a line of its own, two blanks deeper than the list or object that holds it, with a blank after the colon; an
empty list and an empty object stay on one line. A tree that is marked broken is written up to its mark, so what comes
out of a broken tree is not JSON.
-/

namespace RecipeScript.Json

mutual

/-- A value on one line without blanks. -/
def compact : Json → List Char
  | null => ['n', 'u', 'l', 'l']
  | bool true => ['t', 'r', 'u', 'e']
  | bool false => ['f', 'a', 'l', 's', 'e']
  | number numeral => numeral.text
  | string pieces => '"' :: writtenPieces pieces ++ ['"']
  | array items closed => '[' :: compactItems items ++ (if closed then [']'] else [])
  | object members closed => '{' :: compactMembers members ++ (if closed then ['}'] else [])
  | fault => []

/-- The items of a list, separated by commas. -/
def compactItems : List Json → List Char
  | [] => []
  | [item] => item.compact
  | item :: items => item.compact ++ ',' :: compactItems items

/-- The members of an object, separated by commas. -/
def compactMembers : List (List StringPiece × Json) → List Char
  | [] => []
  | [(name, value)] => '"' :: writtenPieces name ++ '"' :: ':' :: value.compact
  | (name, value) :: members => '"' :: writtenPieces name ++ '"' :: ':' :: value.compact ++ ',' :: compactMembers members

end

/-- The start of a line at the given depth. -/
def newLine (depth : Nat) : List Char :=
  '\n' :: List.replicate (2 * depth) ' '

mutual

/-- A value laid out over lines, where `depth` says how deep the line that it starts on is indented. -/
def pretty (depth : Nat) : Json → List Char
  | array (item :: items) closed =>
    '[' :: prettyItems (depth + 1) (item :: items) ++ (if closed then newLine depth ++ [']'] else [])
  | object (member :: members) closed =>
    '{' :: prettyMembers (depth + 1) (member :: members)
      ++ (if closed then newLine depth ++ ['}'] else [])
  | array [] closed => '[' :: (if closed then [']'] else [])
  | object [] closed => '{' :: (if closed then ['}'] else [])
  | null => compact null
  | bool value => compact (bool value)
  | number numeral => compact (number numeral)
  | string pieces => compact (string pieces)
  | fault => []

/-- The items of a list, a line each. -/
def prettyItems (depth : Nat) : List Json → List Char
  | [] => []
  | [item] => newLine depth ++ item.pretty depth
  | item :: items => newLine depth ++ item.pretty depth ++ ',' :: prettyItems depth items

/-- The members of an object, a line each. -/
def prettyMembers (depth : Nat) : List (List StringPiece × Json) → List Char
  | [] => []
  | [(name, value)] => newLine depth ++ '"' :: writtenPieces name ++ '"' :: ':' :: ' ' :: value.pretty depth
  | (name, value) :: members =>
    newLine depth ++ '"' :: writtenPieces name ++ '"' :: ':' :: ' ' :: value.pretty depth ++ ',' :: prettyMembers depth members

end

/-- The text of a value on one line. -/
def toCompactText (value : Json) : String :=
  String.ofList value.compact

/-- The text of a value over lines. -/
def toPrettyText (value : Json) : String :=
  String.ofList (value.pretty 0)

end RecipeScript.Json
