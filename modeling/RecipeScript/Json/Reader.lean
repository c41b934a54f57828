import RecipeScript.Json.Syntax

/-!
# Reading JSON

`Json.read` finds the value that a text holds. It never fails: a text that is not JSON gives a tree that is marked
broken where the trouble starts, as `RecipeScript.Json.Syntax` describes.

The three readers call each other along the structure of the text. Each call is given fuel; a call that does not
consume a character is followed by one that does, so twice the length of the text is enough, and `read` supplies it.
-/

namespace RecipeScript.Json

/-- Blanks between the tokens of JSON. -/
def isSpace (c : Char) : Bool :=
  c == ' ' || c == '\n' || c == '\t' || c == '\r'

/-- A text without the blanks in front. -/
def skipSpace (cs : List Char) : List Char :=
  cs.dropWhile isSpace

/-- A value that is spelled out, and what follows it; anything else that is neither string, list nor object is a number
or a fault. -/
def takePlain (cs : List Char) : Json × List Char :=
  match cs with
  | 'n' :: 'u' :: 'l' :: 'l' :: rest => (null, rest)
  | 't' :: 'r' :: 'u' :: 'e' :: rest => (bool true, rest)
  | 'f' :: 'a' :: 'l' :: 's' :: 'e' :: rest => (bool false, rest)
  | _ => match Numeral.take? cs with
    | some (numeral, rest) => (number numeral, rest)
    | none => (fault, cs)

mutual

/-- Reads a value and gives what follows it. -/
def readValue (fuel : Nat) (text : List Char) : Json × List Char :=
  match fuel with
  | 0 => (fault, text)
  | fuel + 1 =>
    match skipSpace text with
    | '"' :: rest =>
      match takeString? rest with
      | some (pieces, rest) => (string pieces, rest)
      | none => (fault, rest)
    | '[' :: rest =>
      match skipSpace rest with
      | ']' :: rest => (array [] true, rest)
      | rest =>
        let (items, closed, rest) := readItems fuel rest
        (array items closed, rest)
    | '{' :: rest =>
      match skipSpace rest with
      | '}' :: rest => (object [] true, rest)
      | rest =>
        let (members, closed, rest) := readMembers fuel rest
        (object members closed, rest)
    | rest => takePlain rest

/-- Reads the items of a list up to its closing bracket, at a place where an item has to come. -/
def readItems (fuel : Nat) (text : List Char) : List Json × Bool × List Char :=
  match fuel with
  | 0 => ([], false, text)
  | fuel + 1 =>
    let (item, rest) := readValue fuel text
    if item.isBroken then ([item], false, rest)
    else match skipSpace rest with
      | ',' :: rest =>
        let (items, closed, rest) := readItems fuel rest
        (item :: items, closed, rest)
      | ']' :: rest => ([item], true, rest)
      | rest => ([item], false, rest)

/-- Reads the members of an object up to its closing brace, at a place where a member has to come. -/
def readMembers (fuel : Nat) (text : List Char) : List (List StringPiece × Json) × Bool × List Char :=
  match fuel with
  | 0 => ([], false, text)
  | fuel + 1 =>
    match skipSpace text with
    | '"' :: rest =>
      match takeString? rest with
      | none => ([], false, rest)
      | some (name, rest) =>
        match skipSpace rest with
        | ':' :: rest =>
          let (value, rest) := readValue fuel rest
          if value.isBroken then ([(name, value)], false, rest)
          else match skipSpace rest with
            | ',' :: rest =>
              let (members, closed, rest) := readMembers fuel rest
              ((name, value) :: members, closed, rest)
            | '}' :: rest => ([(name, value)], true, rest)
            | rest => ([(name, value)], false, rest)
        | rest => ([(name, fault)], false, rest)
    | rest => ([], false, rest)

end

/-- The value that a text holds, and whether nothing but blanks follows it. -/
def read (text : String) : Json × Bool :=
  let cs := text.toList
  let (value, rest) := readValue (2 * cs.length + 1) cs
  (value, (skipSpace rest).isEmpty)

end RecipeScript.Json
