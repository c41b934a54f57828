import RecipeScript.Yaml.Token

/-!
# Cutting a YAML text into tokens

The name of a member need not be marked: only the colon after it tells that a name came before. So whenever something that
could be a name begins, its place is remembered, and when the colon comes, the token that marks a name is put there after
the fact. A remembered name expires at the end of its line or after 1024 bytes. Outside brackets and braces, what
starts at the indentation of its block has to be a name, and then it is an error for it to expire.

One name is remembered for each level of brackets and braces. The indentation of blocks is a stack too, and where a line
is indented less than the blocks around it, they end. Brackets and braces switch indentation off.

Columns and indentations are compared as integers, because the text as a whole counts as a block at column −1.
-/

namespace RecipeScript.Yaml

/-- A place where the name of a member may have begun. -/
structure PendingName where
  /-- Whether it has to turn out to be a name. -/
  required : Bool
  /-- How many tokens come before it. -/
  place : Nat
  index : Nat
  line : Nat
  column : Nat

/-- The state of the lexer. -/
structure Lexer where
  cursor : Cursor
  /-- The tokens found so far, the latest first. -/
  tokens : List Token := []
  /-- The column of the innermost block. -/
  indent : Int := -1
  /-- The columns of the blocks around it, from the inside out. -/
  outerIndents : List Int := []
  /-- Whether the name of a member may begin here. -/
  nameAllowed : Bool := true
  /-- The name remembered on the innermost level of brackets and braces. -/
  pending : Option PendingName := none
  /-- Those of the levels around it, from the inside out. -/
  outerPending : List (Option PendingName) := []

namespace Lexer

/-- Whether the place is inside brackets or braces. -/
def inFlow (lx : Lexer) : Bool :=
  !lx.outerPending.isEmpty

/-- Adds a token at the end. -/
def emit (lx : Lexer) (token : Token) : Lexer :=
  { lx with tokens := token :: lx.tokens }

/-- Adds a token at an earlier place. -/
def emitAt (lx : Lexer) (place : Nat) (token : Token) : Lexer :=
  { lx with tokens := lx.tokens.insertIdx (lx.tokens.length - place) token }

/-- Moves on by so many characters. -/
def advance (lx : Lexer) (count : Nat) : Lexer :=
  { lx with cursor := lx.cursor.advance count }

/-- Adds a token and moves on to the place after it. -/
def accept (lx : Lexer) (found : Token × Cursor) : Lexer :=
  { lx.emit found.1 with cursor := found.2 }

/-- Says whether a name may begin at the next place. -/
def allowName (lx : Lexer) (allowed : Bool) : Lexer :=
  { lx with nameAllowed := allowed }

/-! ## Remembered names -/

/-- Forgets the name remembered on this level, which is an error if it had to be one. -/
def forget? (lx : Lexer) : Option Lexer :=
  if lx.pending.any (·.required) then none else some { lx with pending := none }

/-- Remembers this place as one where a name may have begun. -/
def remember? (lx : Lexer) : Option Lexer :=
  if lx.nameAllowed then do
    let lx ← lx.forget?
    let cur := lx.cursor
    let required := !lx.inFlow && lx.indent == (cur.column : Int)
    return { lx with pending := some ⟨required, lx.tokens.length, cur.index, cur.line, cur.column⟩ }
  else some lx

/-- What is left of a remembered name when the cursor has moved on. -/
def expireOne? (cur : Cursor) : Option PendingName → Option (Option PendingName)
  | none => some none
  | some name =>
    if name.line < cur.line || name.index + 1024 < cur.index then
      if name.required then none else some none
    else some (some name)

/-- Forgets the names that have expired. -/
def expire? (lx : Lexer) : Option Lexer := do
  let pending ← expireOne? lx.cursor lx.pending
  let outerPending ← lx.outerPending.mapM (expireOne? lx.cursor)
  return { lx with pending, outerPending }

/-! ## Blocks -/

/-- Opens a block at the given column, unless one is open there or brackets are. Its token goes to `place`, or to the
end. -/
def openBlock (lx : Lexer) (column : Nat) (place : Option Nat) (token : Token) : Lexer :=
  if !lx.inFlow && lx.indent < (column : Int) then
    let lx := { lx with indent := column, outerIndents := lx.indent :: lx.outerIndents }
    match place with
    | some place => lx.emitAt place token
    | none => lx.emit token
  else lx

/-- The blocks and tokens after all blocks deeper than a column have ended. -/
def endBlocks (column indent : Int) (outerIndents : List Int) (tokens : List Token) : Int × List Int × List Token :=
  match outerIndents with
  | [] => (indent, [], tokens)
  | outer :: outerIndents =>
    if column < indent then endBlocks column outer outerIndents (.blockEnd :: tokens)
    else (indent, outer :: outerIndents, tokens)

/-- Ends the blocks that are deeper than a column. -/
def closeBlocks (lx : Lexer) (column : Int) : Lexer :=
  if lx.inFlow then lx
  else
    let (indent, outerIndents, tokens) := endBlocks column lx.indent lx.outerIndents lx.tokens
    { lx with indent, outerIndents, tokens }

/-- The least column of what continues the innermost block. -/
def margin (lx : Lexer) : Nat :=
  (lx.indent + 1).toNat

/-! ## Between tokens -/

/-- Whether the space or tab that comes next can be skipped. A tab cannot be where a name may begin, as it would hide how
deep the name is indented. -/
def skips (lx : Lexer) (c : Char) : Bool :=
  c == ' ' || (c == '\t' && (lx.inFlow || !lx.nameAllowed))

/-- Moves on to the next token, over blanks, comments and line breaks. A line may start with a byte order mark, which takes
up a column. -/
def skipToToken (fuel : Nat) (lx : Lexer) : Lexer :=
  match fuel with
  | 0 => lx
  | fuel + 1 =>
    let lx := if lx.cursor.column = 0 && lx.cursor.isAt '\uFEFF' then lx.advance 1 else lx
    let lx := { lx with cursor := (lx.cursor.skipWhile lx.skips).skipComment }
    match lx.cursor.takeBreak? with
    | some (_, cur) =>
      skipToToken fuel { lx with cursor := cur, nameAllowed := lx.nameAllowed || !lx.inFlow }
    | none => lx

/-! ## Tokens -/

/-- A directive or a marker between documents ends all blocks. -/
def endDocument? (lx : Lexer) : Option Lexer := do
  let lx ← (lx.closeBlocks (-1)).forget?
  return lx.allowName false

/-- An opening bracket or brace. -/
def openFlow? (lx : Lexer) (token : Token) : Option Lexer := do
  let lx ← lx.remember?
  let lx := { lx with pending := none, outerPending := lx.pending :: lx.outerPending }
  return ((lx.allowName true).emit token).advance 1

/-- A closing bracket or brace. It need not match the opening one, nor need there be one: that is not for the lexer to
say. -/
def closeFlow? (lx : Lexer) (token : Token) : Option Lexer := do
  let lx ← lx.forget?
  let lx := match lx.outerPending with
    | [] => lx
    | outer :: outerPending => { lx with pending := outer, outerPending }
  return ((lx.allowName false).emit token).advance 1

/-- A comma. -/
def flowEntry? (lx : Lexer) : Option Lexer := do
  let lx ← lx.forget?
  return ((lx.allowName true).emit .flowEntry).advance 1

/-- A dash before an item. -/
def blockEntry? (lx : Lexer) : Option Lexer := do
  if !lx.inFlow && !lx.nameAllowed then none
  let lx ← (lx.openBlock lx.cursor.column none .blockSequenceStart).forget?
  return ((lx.allowName true).emit .blockEntry).advance 1

/-- A question mark before a name. -/
def explicitName? (lx : Lexer) : Option Lexer := do
  if !lx.inFlow && !lx.nameAllowed then none
  let lx ← (lx.openBlock lx.cursor.column none .blockMappingStart).forget?
  return ((lx.allowName (!lx.inFlow)).emit .key).advance 1

/-- A colon. If a name was remembered on this level, this is where it is marked as one. -/
def colon? (lx : Lexer) : Option Lexer := do
  let lx ← match lx.pending with
    | some name =>
      let lx := { lx.emitAt name.place .key with pending := none }
      pure ((lx.openBlock name.column (some name.place) .blockMappingStart).allowName false)
    | none =>
      if !lx.inFlow && !lx.nameAllowed then none
      else pure ((lx.openBlock lx.cursor.column none .blockMappingStart).allowName (!lx.inFlow))
  return (lx.emit .value).advance 1

/-- A token with a content that may be the name of a member. -/
def content? (lx : Lexer) (take? : Cursor → Option (Token × Cursor)) : Option Lexer := do
  let lx ← lx.remember?
  return (lx.allowName false).accept (← take? lx.cursor)

/-- A scalar between quotes. -/
def quoted? (lx : Lexer) (double : Bool) : Option Lexer :=
  lx.content? fun cur => do
    let (text, cur) ← takeQuoted? (cur.rest.length + 1) double [] (cur.advance 1)
    return (.scalar .quoted text, cur)

/-- A scalar that is a block of lines. -/
def block? (lx : Lexer) (literal : Bool) : Option Lexer := do
  let lx ← lx.forget?
  let (text, cur) ← takeBlock? literal lx.margin (lx.cursor.advance 1)
  return (lx.allowName true).accept (.scalar (if literal then .literal else .folded) text, cur)

/-- A plain scalar. If it ends after a line break, a name may begin there. -/
def plain? (lx : Lexer) : Option Lexer := do
  let lx ← lx.remember?
  let (text, broken, cur) ←
    takePlain? (lx.cursor.rest.length + 1) lx.inFlow lx.margin [] (.spaces []) lx.cursor
  return (lx.allowName broken).accept (.scalar .plain text, cur)

/-- Whether a plain scalar may begin with the given characters. A dash may begin one if no space follows; a question mark
and a colon may outside brackets and braces. -/
def startsPlain (lx : Lexer) (c : Char) (cs : List Char) : Bool :=
  let indicators :=
    ['-', '?', ':', ',', '[', ']', '{', '}', '#', '&', '*', '!', '|', '>', '\'', '"', '%', '@', Char.ofNat 0x60]
  !(isSpace c || isBreak c || indicators.contains c)
    || (c == '-' && !cs.head?.any isSpace)
    || (!lx.inFlow && (c == '?' || c == ':') && !endsWord cs)

/-- The token that begins with the given character, which comes next, followed by the others. -/
def token? (lx : Lexer) (c : Char) (cs : List Char) : Option Lexer :=
  let cur := lx.cursor
  if cur.column = 0 && c = '%' then do
    let lx ← lx.endDocument?
    return lx.accept (← takeDirective? (lx.cursor.advance 1))
  else if cur.isAtMark '-' then do return ((← lx.endDocument?).emit .documentStart).advance 3
  else if cur.isAtMark '.' then do return ((← lx.endDocument?).emit .documentEnd).advance 3
  else if c = '[' then lx.openFlow? .flowSequenceStart
  else if c = '{' then lx.openFlow? .flowMappingStart
  else if c = ']' then lx.closeFlow? .flowSequenceEnd
  else if c = '}' then lx.closeFlow? .flowMappingEnd
  else if c = ',' then lx.flowEntry?
  else if c = '-' && endsWord cs then lx.blockEntry?
  else if c = '?' && (lx.inFlow || endsWord cs) then lx.explicitName?
  else if c = ':' && (lx.inFlow || endsWord cs) then lx.colon?
  else if c = '*' then lx.content? fun cur => do
    let (name, cur) ← takeAnchor? (cur.advance 1)
    return (.alias name, cur)
  else if c = '&' then lx.content? fun cur => do
    let (name, cur) ← takeAnchor? (cur.advance 1)
    return (.anchor name, cur)
  else if c = '!' then lx.content? (takeTag? lx.inFlow)
  else if c = '|' && !lx.inFlow then lx.block? true
  else if c = '>' && !lx.inFlow then lx.block? false
  else if c = '\'' then lx.quoted? false
  else if c = '"' then lx.quoted? true
  else if lx.startsPlain c cs then lx.plain?
  else none

/-- Reads tokens up to the end of the text, where all blocks end and no name may be left that had to be one. -/
def run? (fuel : Nat) (lx : Lexer) : Option (List Token) :=
  match fuel with
  | 0 => none
  | fuel + 1 => do
    let lx := lx.skipToToken (lx.cursor.rest.length + 1)
    let lx ← lx.expire?
    let lx := lx.closeBlocks lx.cursor.column
    match lx.cursor.rest with
    | [] => return (← (lx.closeBlocks (-1)).forget?).tokens.reverse
    | c :: cs => (← lx.token? c cs).run? fuel

end Lexer

/-- The tokens of a text. -/
def Token.ofText? (text : List Char) : Option (List Token) :=
  if text.all isAllowed then Lexer.run? (text.length + 2) { cursor := { rest := text } } else none

end RecipeScript.Yaml
