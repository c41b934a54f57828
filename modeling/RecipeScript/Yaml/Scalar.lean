import RecipeScript.Text.Digits
import RecipeScript.Yaml.Cursor

/-!
# The texts of scalars

A scalar is written plainly, between quotes of either kind, or as a block of lines. All but the last fold: a single line
break between two words of the scalar reads as one space, and of several line breaks in a row the first one is dropped.
What stands between two words is a `Gap`, which says what it reads as.

A block takes its indentation from its first line that is not blank, or from a digit behind its indicator. It keeps its
line breaks, or folds those between lines that are not indented further. A sign behind the indicator says what becomes of
the line breaks at the end.

Every reader gives `none` if the text is not well-formed. Their fuel is the length of the text, and each round reads at
least one character.
-/

namespace RecipeScript.Yaml

/-! ## Gaps -/

/-- What stands between two words of a scalar. -/
inductive Gap where
  /-- Spaces and tabs on one line. -/
  | spaces (text : List Char)
  /-- Line breaks, the first of which may have been escaped, and any spaces and tabs around them. -/
  | breaks (first : Option Char) (more : List Char)

namespace Gap

/-- The text that a gap reads as. -/
def text : Gap → List Char
  | spaces text => text
  | breaks (some '\n') [] => [' ']
  | breaks (some '\n') more => more
  | breaks (some c) more => c :: more
  | breaks none more => more

/-- Whether the gap goes over a line break. -/
def isBroken : Gap → Bool
  | spaces _ => false
  | breaks _ _ => true

/-- Takes in a line break. -/
def addBreak (c : Char) : Gap → Gap
  | spaces _ => breaks (some c) []
  | breaks first more => breaks first (more ++ [c])

/-- Reads on over spaces, tabs and line breaks. A tab may not stand before the column `margin` of a new line. -/
def take? (fuel margin : Nat) (gap : Gap) (cur : Cursor) : Option (Gap × Cursor) :=
  match fuel with
  | 0 => some (gap, cur)
  | fuel + 1 =>
    match cur.takeBreak? with
    | some (c, cur) => (gap.addBreak c).take? fuel margin cur
    | none =>
      match cur.rest with
      | [] => some (gap, cur)
      | c :: _ =>
        if isSpace c then
          match gap with
          | spaces text => (spaces (text ++ [c])).take? fuel margin (cur.advance 1)
          | breaks _ _ =>
            if c = '\t' ∧ cur.column < margin then none else gap.take? fuel margin (cur.advance 1)
        else some (gap, cur)

end Gap

/-! ## Plain scalars -/

/-- A sign with a meaning inside brackets and braces. -/
def isFlowSign (c : Char) : Bool :=
  c == ',' || c == '[' || c == ']' || c == '{' || c == '}'

/-- The word of a plain scalar that comes next. A colon ends it if a word ends there too; inside brackets and braces, so
does every sign with a meaning there, and a colon right before one is refused. -/
def plainWord? (inFlow : Bool) : List Char → Option (List Char)
  | [] => some []
  | c :: cs =>
    if isSpace c || isBreak c then some []
    else if inFlow && c == ':' && (cs.head?.any fun d => isFlowSign d || d == '?') then none
    else if (c == ':' && endsWord cs) || (inFlow && isFlowSign c) then some []
    else (plainWord? inFlow cs).map (c :: ·)

/-- Reads on in a plain scalar, of which `text` has been read, and after it `gap`. Lines that continue it have to be
indented to the column `margin`, except inside brackets and braces. The result says whether the last thing read is a line
break. -/
def takePlain? (fuel : Nat) (inFlow : Bool) (margin : Nat) (text : List Char) (gap : Gap) (cur : Cursor) :
    Option (List Char × Bool × Cursor) :=
  match fuel with
  | 0 => some (text, gap.isBroken, cur)
  | fuel + 1 =>
    if cur.isAtDocumentMark || cur.isAt '#' then some (text, gap.isBroken, cur)
    else do
      let word ← plainWord? inFlow cur.rest
      let (text, gap) := if word.isEmpty then (text, gap) else (text ++ gap.text ++ word, Gap.spaces [])
      let cur := cur.advance word.length
      if cur.rest.isEmpty || !endsWord cur.rest then return (text, gap.isBroken, cur)
      let (gap, cur) ← gap.take? cur.rest.length margin cur
      if !inFlow && cur.column < margin then return (text, gap.isBroken, cur)
      takePlain? fuel inFlow margin text gap cur

/-! ## Quoted scalars -/

/-- What an escape of one letter or sign stands for. -/
def shortEscape? (c : Char) : Option Char :=
  match c with
  | '0' => some (Char.ofNat 0x0)
  | 'a' => some (Char.ofNat 0x7)
  | 'b' => some (Char.ofNat 0x8)
  | 't' => some '\t'
  | '\t' => some '\t'
  | 'n' => some '\n'
  | 'v' => some (Char.ofNat 0xB)
  | 'f' => some (Char.ofNat 0xC)
  | 'r' => some '\r'
  | 'e' => some (Char.ofNat 0x1B)
  | ' ' => some ' '
  | '"' => some '"'
  | '/' => some '/'
  | '\\' => some '\\'
  | 'N' => some (Char.ofNat 0x85)
  | '_' => some (Char.ofNat 0xA0)
  | 'L' => some (Char.ofNat 0x2028)
  | 'P' => some (Char.ofNat 0x2029)
  | _ => none

/-- How many hexadecimal digits follow the letter of an escape that has any. -/
def escapeWidth? (c : Char) : Option Nat :=
  match c with
  | 'x' => some 2
  | 'u' => some 4
  | 'U' => some 8
  | _ => none

/-- The number that hexadecimal digits spell. -/
def hexNumber? (digits : List Char) : Option Nat :=
  digits.foldlM (fun n c => do return n * 16 + (← hexValue? c)) 0

/-- The character of an escape, of which the text after the backslash is given, and the length of that text. -/
def escape? : List Char → Option (Char × Nat)
  | [] => none
  | c :: cs =>
    match escapeWidth? c with
    | some width => do
      let digits := cs.take width
      let n ← hexNumber? digits
      if digits.length = width ∧ n.isValidChar then return (Char.ofNat n, width + 1) else none
    | none => (shortEscape? c).map fun c => (c, 1)

/-- Reads on between quotes up to a space, a line break or the closing quote. The result says whether it stopped after a
line break that was escaped. -/
def takeQuotedWord? (fuel : Nat) (double : Bool) (text : List Char) (cur : Cursor) :
    Option (List Char × Bool × Cursor) :=
  match fuel with
  | 0 => some (text, false, cur)
  | fuel + 1 =>
    match cur.rest with
    | [] => some (text, false, cur)
    | c :: cs =>
      if isSpace c || isBreak c then some (text, false, cur)
      else if double then
        if c = '"' then some (text, false, cur)
        else if c = '\\' then
          if cs.head?.any isBreak then some (text, true, (cur.advance 1).skipBreak)
          else do
            let (escaped, length) ← escape? cs
            takeQuotedWord? fuel double (text ++ [escaped]) (cur.advance (length + 1))
        else takeQuotedWord? fuel double (text ++ [c]) (cur.advance 1)
      else if c = '\'' then
        if cs.head? = some '\'' then takeQuotedWord? fuel double (text ++ ['\'']) (cur.advance 2)
        else some (text, false, cur)
      else takeQuotedWord? fuel double (text ++ [c]) (cur.advance 1)

/-- Reads on between quotes up to and including the closing quote. A marker between documents may not stand there. -/
def takeQuoted? (fuel : Nat) (double : Bool) (text : List Char) (cur : Cursor) : Option (List Char × Cursor) :=
  match fuel with
  | 0 => none
  | fuel + 1 =>
    if cur.isAtDocumentMark || cur.rest.isEmpty then none
    else do
      let (text, escaped, cur) ← takeQuotedWord? cur.rest.length double text cur
      if cur.isAt (if double then '"' else '\'') then return (text, cur.advance 1)
      let gap := if escaped then Gap.breaks none [] else Gap.spaces []
      let (gap, cur) ← gap.take? cur.rest.length 0 cur
      takeQuoted? fuel double (text ++ gap.text) cur

/-! ## Block scalars -/

/-- What becomes of the line breaks at the end of a block. -/
inductive Chomping where
  | strip | clip | keep
deriving DecidableEq

/-- The sign that says what becomes of the line breaks at the end. -/
def takeChomping? (cur : Cursor) : Option (Chomping × Cursor) :=
  if cur.isAt '+' then some (.keep, cur.advance 1)
  else if cur.isAt '-' then some (.strip, cur.advance 1)
  else none

/-- The digit that says how deep a block is indented; zero stands for no digit, and may not be written. -/
def takeIncrement? (cur : Cursor) : Option (Nat × Cursor) :=
  match cur.rest with
  | [] => some (0, cur)
  | c :: _ =>
    if c = '0' then none
    else if c.isDigit then some (c.toNat - '0'.toNat, cur.advance 1)
    else some (0, cur)

/-- The sign and the digit behind the indicator of a block, in either order. -/
def takeBlockHeader? (cur : Cursor) : Option (Chomping × Nat × Cursor) :=
  match takeChomping? cur with
  | some (chomping, cur) => do
    let (increment, cur) ← takeIncrement? cur
    return (chomping, increment, cur)
  | none => do
    let (increment, after) ← takeIncrement? cur
    if increment = 0 then return (.clip, 0, cur)
    match takeChomping? after with
    | some (chomping, cur) => return (chomping, increment, cur)
    | none => return (.clip, increment, after)

/-- Reads over blank lines and the indentation of the next line. The indentation of the block is `indent`, or is found out
if that is zero; `deepest` is the deepest that a line has been indented so far, and `least` the least that the block may
be. Gives the indentation and the line breaks. -/
def takeBlankLines? (fuel indent deepest least : Nat) (breaks : List Char) (cur : Cursor) :
    Option (Nat × List Char × Cursor) :=
  match fuel with
  | 0 => none
  | fuel + 1 =>
    let spaces := (cur.rest.takeWhile (· == ' ')).length
    let cur := cur.advance (if indent = 0 then spaces else min spaces (indent - cur.column))
    let deepest := max deepest cur.column
    if cur.isAt '\t' && (indent = 0 || cur.column < indent) then none
    else match cur.takeBreak? with
      | some (c, cur) => takeBlankLines? fuel indent deepest least (breaks ++ [c]) cur
      | none => some (if indent = 0 then max deepest (max least 1) else indent, breaks, cur)

/-- A block of which some lines have been read. -/
structure Block where
  text : List Char
  /-- The line break after the last line, if there was one. -/
  lastBreak : List Char
  /-- The line breaks of the blank lines after it. -/
  blankLines : List Char
  /-- Whether the last line begins with a space or a tab. -/
  indented : Bool

/-- Reads the lines of a block from a place at which a line of it may begin. -/
def takeBlockLines? (fuel : Nat) (literal : Bool) (indent : Nat) (block : Block) (cur : Cursor) :
    Option (Block × Cursor) :=
  match fuel with
  | 0 => some (block, cur)
  | fuel + 1 =>
    if cur.column ≠ indent || cur.rest.isEmpty then some (block, cur)
    else do
      let indented := cur.rest.head?.any isSpace
      let folds := !literal && block.lastBreak == ['\n'] && !block.indented && !indented
      let joint :=
        if folds then (if block.blankLines.isEmpty then [' '] else block.blankLines)
        else block.lastBreak ++ block.blankLines
      let line := cur.rest.takeWhile (!isBreak ·)
      let cur := cur.advance line.length
      let (lastBreak, cur) := match cur.takeBreak? with
        | some (c, cur) => ([c], cur)
        | none => ([], cur)
      let (_, blankLines, cur) ← takeBlankLines? (cur.rest.length + 1) indent 0 0 [] cur
      takeBlockLines? fuel literal indent ⟨block.text ++ joint ++ line, lastBreak, blankLines, indented⟩ cur

/-- Reads a block after its indicator, where `parent` is the least column of what may stand in its place. -/
def takeBlock? (literal : Bool) (parent : Nat) (cur : Cursor) : Option (List Char × Cursor) := do
  let (chomping, increment, cur) ← takeBlockHeader? cur
  let cur := (cur.skipWhile isSpace).skipComment
  if !endsWord cur.rest then none
  let cur := cur.skipBreak
  let wanted := if increment = 0 then 0 else parent - 1 + increment
  let (indent, blankLines, cur) ← takeBlankLines? (cur.rest.length + 1) wanted 0 parent [] cur
  let (block, cur) ← takeBlockLines? (cur.rest.length + 1) literal indent ⟨[], [], blankLines, false⟩ cur
  let tail := match chomping with
    | .strip => []
    | .clip => block.lastBreak
    | .keep => block.lastBreak ++ block.blankLines
  return (block.text ++ tail, cur)

end RecipeScript.Yaml
