/-!
# A place in a YAML text

YAML gives meaning to columns, so a reader has to know where it is. A cursor is what is left of the text together with the
number of bytes, of lines and of characters on the current line that have been read.

A line break is a line feed, a carriage return, both in this order, or one of three characters beyond ASCII. In the text
of a scalar the first four are all written as a line feed, and the last two stand for themselves.
-/

namespace RecipeScript.Yaml

/-- Whether a character may stand in a YAML text at all. -/
def isAllowed (c : Char) : Bool :=
  let n := c.toNat
  n == 0x9 || n == 0xA || n == 0xD || (0x20 ≤ n && n ≤ 0x7E) || n == 0x85 || (0xA0 ≤ n && n ≤ 0xFFFD)
    || 0x10000 ≤ n

/-- Whether a character is a space or a tab. -/
def isSpace (c : Char) : Bool :=
  c == ' ' || c == '\t'

/-- Whether a character is a line break, or the first part of one. -/
def isBreak (c : Char) : Bool :=
  let n := c.toNat
  n == 0xA || n == 0xD || n == 0x85 || n == 0x2028 || n == 0x2029

/-- Whether nothing, a space or a line break comes next. -/
def endsWord : List Char → Bool
  | [] => true
  | c :: _ => isSpace c || isBreak c

/-- What is left of a text, and where that is. -/
structure Cursor where
  rest : List Char
  /-- Bytes read, as UTF-8 counts them. -/
  index : Nat := 0
  /-- Lines read. -/
  line : Nat := 0
  /-- Characters read on the current line. -/
  column : Nat := 0

namespace Cursor

/-- Whether the next character is the given one. -/
def isAt (cur : Cursor) (c : Char) : Bool :=
  cur.rest.head? == some c

/-- The place after so many characters, none of which is a line break. -/
def advance (cur : Cursor) (count : Nat) : Cursor :=
  let width := (cur.rest.take count).foldl (fun width c => width + c.utf8Size) 0
  { cur with rest := cur.rest.drop count, index := cur.index + width, column := cur.column + count }

/-- The place after the characters that satisfy `p`, none of which is a line break. -/
def skipWhile (p : Char → Bool) (cur : Cursor) : Cursor :=
  cur.advance (cur.rest.takeWhile p).length

/-- The line break that comes next, as it is written in the text of a scalar, and the place after it. -/
def takeBreak? (cur : Cursor) : Option (Char × Cursor) :=
  match cur.rest with
  | '\r' :: '\n' :: rest => some ('\n', ⟨rest, cur.index + 2, cur.line + 1, 0⟩)
  | c :: rest =>
    if isBreak c then
      let written := if c.toNat < 0x2028 then '\n' else c
      some (written, ⟨rest, cur.index + c.utf8Size, cur.line + 1, 0⟩)
    else none
  | [] => none

/-- The place after the line break that comes next, if one does. -/
def skipBreak (cur : Cursor) : Cursor :=
  match cur.takeBreak? with
  | some (_, cur) => cur
  | none => cur

/-- The place at the end of a comment, if one starts here. -/
def skipComment (cur : Cursor) : Cursor :=
  if cur.isAt '#' then cur.skipWhile (!isBreak ·) else cur

/-- Whether three of the given character come next, as a word at the start of a line. -/
def isAtMark (cur : Cursor) (c : Char) : Bool :=
  cur.column == 0 && cur.rest.take 3 == [c, c, c] && endsWord (cur.rest.drop 3)

/-- Whether a marker between documents comes next. -/
def isAtDocumentMark (cur : Cursor) : Bool :=
  cur.isAtMark '-' || cur.isAtMark '.'

end Cursor

end RecipeScript.Yaml
