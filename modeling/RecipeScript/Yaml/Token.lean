import RecipeScript.Yaml.Scalar

/-!
# Tokens

The tokens of YAML make its indentation explicit: a block of items or members begins and ends with a token of its own, as
brackets and braces do. Tags are kept as bytes, since a tag may spell any byte by its number.

This module reads the tokens that have a content: directives, anchors, aliases and tags. Each reader gives `none` if what
follows is not well-formed.
-/

namespace RecipeScript.Yaml

/-- How a scalar is written. -/
inductive Style where
  | plain | quoted | literal | folded
deriving DecidableEq, Repr

/-- A token of YAML. -/
inductive Token where
  /-- The directive that names the version. -/
  | version (major minor : Nat)
  /-- The directive that abbreviates the beginning of tags. -/
  | abbreviation (handle beginning : List UInt8)
  | documentStart
  | documentEnd
  | blockSequenceStart
  | blockMappingStart
  | blockEnd
  | flowSequenceStart
  | flowSequenceEnd
  | flowMappingStart
  | flowMappingEnd
  /-- The dash before an item. -/
  | blockEntry
  /-- The comma between items and members. -/
  | flowEntry
  /-- The sign before the name of a member, or the place of it where it is left out. -/
  | key
  /-- The colon between the name and the value of a member. -/
  | value
  | anchor (name : List Char)
  | alias (name : List Char)
  | tag (handle suffix : List UInt8)
  | scalar (style : Style) (text : List Char)
deriving DecidableEq

/-! ## Names and numbers -/

/-- Whether a character may stand in the name of an anchor, a directive or a handle. -/
def isWordChar (c : Char) : Bool :=
  c.isAlphanum || c == '-' || c == '_'

/-- The word that comes next. -/
def takeWord (cur : Cursor) : List Char × Cursor :=
  let word := cur.rest.takeWhile isWordChar
  (word, cur.advance word.length)

/-- An anchor or an alias, after its sign. -/
def takeAnchor? (cur : Cursor) : Option (List Char × Cursor) :=
  let (name, cur) := takeWord cur
  let ended := endsWord cur.rest || cur.rest.head?.any fun c =>
    c == '?' || c == ':' || c == ',' || c == ']' || c == '}' || c == '%' || c == '@' || c == (Char.ofNat 0x60)
  if name.isEmpty || !ended then none else some (name, cur)

/-- The number of a version, of at most nine digits. -/
def takeVersionNumber? (cur : Cursor) : Option (Nat × Cursor) :=
  let digits := cur.rest.takeWhile Char.isDigit
  if digits.isEmpty || 9 < digits.length then none
  else some (decimalValue digits, cur.advance digits.length)

/-! ## Tags -/

/-- Characters that are all ASCII, as bytes. -/
def asciiBytes (cs : List Char) : List UInt8 :=
  cs.map fun c => UInt8.ofNat c.toNat

/-- Whether a character may stand in a tag as it is. The last three may only between angle brackets. -/
def isTagChar (verbatim : Bool) (c : Char) : Bool :=
  isWordChar c || [';', '/', '?', ':', '@', '&', '=', '+', '$', '.', '!', '~', '*', '\'', '(', ')'].contains c
    || (verbatim && [',', '[', ']'].contains c)

/-- The byte that is spelled by a percent sign and two hexadecimal digits, and what follows. -/
def takeByte? : List Char → Option (Nat × List Char)
  | '%' :: a :: b :: cs => do
    return ((← hexValue? a) * 16 + (← hexValue? b), cs)
  | _ => none

/-- How many bytes the character with the given first byte has. -/
def characterWidth? (first : Nat) : Option Nat :=
  if first < 0x80 then some 1
  else if 0xC0 ≤ first ∧ first < 0xE0 then some 2
  else if 0xE0 ≤ first ∧ first < 0xF0 then some 3
  else if 0xF0 ≤ first ∧ first < 0xF8 then some 4
  else none

/-- The bytes in front of the first zero. A tag cannot hold a zero: if one is spelled, the tag ends before it, though the
characters after it have to be sound. -/
def beforeZero (bytes : List UInt8) : List UInt8 :=
  bytes.takeWhile (· ≠ 0)

/-- So many bytes of the inside of a character, each spelled by its number. -/
def takeInnerBytes? : Nat → List Char → Option (List UInt8 × List Char)
  | 0, cs => some ([], cs)
  | count + 1, cs => do
    let (byte, cs) ← takeByte? cs
    if byte < 0x80 ∨ 0xC0 ≤ byte then none
    else
      let (bytes, cs) ← takeInnerBytes? count cs
      return (UInt8.ofNat byte :: bytes, cs)

/-- A character whose bytes are spelled by their numbers. -/
def takeSpelledChar? (cs : List Char) : Option (List UInt8 × List Char) := do
  let (first, cs) ← takeByte? cs
  let width ← characterWidth? first
  let (bytes, cs) ← takeInnerBytes? (width - 1) cs
  return (UInt8.ofNat first :: bytes, cs)

/-- The characters of a tag, as bytes. -/
def takeTagChars? (fuel : Nat) (verbatim : Bool) (cur : Cursor) : Option (List UInt8 × Cursor) :=
  match fuel with
  | 0 => some ([], cur)
  | fuel + 1 =>
    match cur.rest with
    | [] => some ([], cur)
    | c :: cs =>
      if c = '%' then do
        let (bytes, rest) ← takeSpelledChar? (c :: cs)
        let (more, cur) ← takeTagChars? fuel verbatim (cur.advance (cs.length + 1 - rest.length))
        return (bytes ++ more, cur)
      else if isTagChar verbatim c then do
        let (more, cur) ← takeTagChars? fuel verbatim (cur.advance 1)
        return (UInt8.ofNat c.toNat :: more, cur)
      else some ([], cur)

/-- A handle: a word between two exclamation marks, the second of which may be missing. The flag tells whether it is
there. -/
def takeHandle? (cur : Cursor) : Option (List Char × Bool × Cursor) :=
  if !cur.isAt '!' then none
  else
    let (word, cur) := takeWord (cur.advance 1)
    if cur.isAt '!' then some ('!' :: word ++ ['!'], true, cur.advance 1)
    else some ('!' :: word, false, cur)

/-- A tag between angle brackets, after the first of them. -/
def takeVerbatimTag? (cur : Cursor) : Option (Token × Cursor) := do
  let (suffix, cur) ← takeTagChars? cur.rest.length true cur
  if suffix.isEmpty || !cur.isAt '>' then none
  return (.tag [] (beforeZero suffix), cur.advance 1)

/-- A tag with a handle. Without its second exclamation mark, what looks like a handle belongs to the suffix; an
exclamation mark with nothing after it is a tag of its own. -/
def takeShortTag? (cur : Cursor) : Option (Token × Cursor) := do
  let (handle, complete, cur) ← takeHandle? cur
  let (suffix, cur) ← takeTagChars? cur.rest.length false cur
  if complete then
    if suffix.isEmpty then none
    return (.tag (asciiBytes handle) (beforeZero suffix), cur)
  let suffix := beforeZero (asciiBytes handle.tail ++ suffix)
  if suffix.isEmpty then return (.tag [] (asciiBytes ['!']), cur)
  return (.tag (asciiBytes ['!']) suffix, cur)

/-- A tag. It ends where a word ends, or at a comma inside brackets and braces. -/
def takeTag? (inFlow : Bool) (cur : Cursor) : Option (Token × Cursor) := do
  let (token, cur) ←
    if cur.rest.take 2 = ['!', '<'] then takeVerbatimTag? (cur.advance 2) else takeShortTag? cur
  if (inFlow && cur.isAt ',') || endsWord cur.rest then return (token, cur)
  none

/-! ## Directives -/

/-- The version that a directive names. -/
def takeVersion? (cur : Cursor) : Option (Token × Cursor) := do
  let (major, cur) ← takeVersionNumber? (cur.skipWhile isSpace)
  if !cur.isAt '.' then none
  let (minor, cur) ← takeVersionNumber? (cur.advance 1)
  return (.version major minor, cur)

/-- The abbreviation that a directive makes. -/
def takeAbbreviation? (cur : Cursor) : Option (Token × Cursor) := do
  let (handle, complete, cur) ← takeHandle? (cur.skipWhile isSpace)
  if !complete && handle ≠ ['!'] then none
  if !cur.rest.head?.any isSpace then none
  let cur := cur.skipWhile isSpace
  let (beginning, cur) ← takeTagChars? cur.rest.length true cur
  if beginning.isEmpty || !endsWord cur.rest then none
  return (.abbreviation (asciiBytes handle) (beforeZero beginning), cur)

/-- A directive, after its percent sign. Nothing but a comment may follow on its line. -/
def takeDirective? (cur : Cursor) : Option (Token × Cursor) := do
  let (name, cur) := takeWord cur
  if !endsWord cur.rest then none
  let (token, cur) ←
    if name = ['Y', 'A', 'M', 'L'] then takeVersion? cur
    else if name = ['T', 'A', 'G'] then takeAbbreviation? cur
    else none
  let cur := (cur.skipWhile isSpace).skipComment
  if !endsWord cur.rest then none
  return (token, cur.skipBreak)

end RecipeScript.Yaml
