import RecipeScript.Text.Digits

/-!
# Strings as JSON writes them

Between the quotes of a JSON string, a backslash opens an escape: one of eight letters and signs, or `u` and four
hexadecimal digits, which give one unit of UTF-16. A string is kept piece by piece, as it is written: a piece is a
character that stands for itself, or an escape of either kind.

The pieces of a string need not have a text. Two units in a row may form one character, but a unit that is half a pair on
its own is well-formed JSON and yet no character. So there are two readings. `takeString?` finds where a string ends and
cuts it into pieces, which is all that is asked of a string that nobody needs; `textOfPieces?` gives the text, if there is
one. Writing goes the other way: `piecesOfText` uses the short escapes where there are any, and a number only for the other
control characters.
-/

namespace RecipeScript

/-- An escape of one letter or sign. -/
inductive ShortEscape where
  | quote | backslash | slash | backspace | formFeed | lineFeed | carriageReturn | tab
deriving DecidableEq, Repr

namespace ShortEscape

/-- The letter or sign behind the backslash. -/
def letter : ShortEscape → Char
  | quote => '"'
  | backslash => '\\'
  | slash => '/'
  | backspace => 'b'
  | formFeed => 'f'
  | lineFeed => 'n'
  | carriageReturn => 'r'
  | tab => 't'

/-- The character that is meant. -/
def char : ShortEscape → Char
  | quote => '"'
  | backslash => '\\'
  | slash => '/'
  | backspace => '\x08'
  | formFeed => '\x0c'
  | lineFeed => '\n'
  | carriageReturn => '\r'
  | tab => '\t'

/-- All of them. -/
def all : List ShortEscape :=
  [quote, backslash, slash, backspace, formFeed, lineFeed, carriageReturn, tab]

/-- The escape with a given letter or sign. -/
def ofLetter? (c : Char) : Option ShortEscape :=
  all.find? (·.letter == c)

/-- The escape that is used to write a character. A slash is written as it is. -/
def ofChar? (c : Char) : Option ShortEscape :=
  all.find? fun e => e ≠ slash && e.char == c

@[simp] theorem ofLetter?_letter (e : ShortEscape) : ofLetter? e.letter = some e := by
  cases e <;> decide

theorem char_of_ofChar? {c : Char} {e : ShortEscape} (h : ofChar? c = some e) : e.char = c := by
  have := List.find?_some (p := fun e => decide (e ≠ slash) && e.char == c) h
  simp only [Bool.and_eq_true, beq_iff_eq] at this
  exact this.2

end ShortEscape

/-- A piece of a string, as it is written. -/
inductive StringPiece where
  /-- A character that stands for itself. -/
  | char (c : Char)
  | short (e : ShortEscape)
  /-- A unit of UTF-16, given by its number. -/
  | unit (n : UInt16)
deriving DecidableEq, Repr

namespace StringPiece

/-- The piece that a character is written as. -/
def ofChar (c : Char) : StringPiece :=
  match ShortEscape.ofChar? c with
  | some e => short e
  | none => if c.toNat < 0x20 then unit (.ofNat c.toNat) else char c

/-- A hexadecimal digit. -/
def hexDigit (n : Nat) : Char :=
  Nat.digitChar (n % 16)

/-- The characters of a piece. -/
def written : StringPiece → List Char
  | char c => [c]
  | short e => ['\\', e.letter]
  | unit n =>
    let n := n.toNat
    ['\\', 'u', hexDigit (n / 0x1000), hexDigit (n / 0x100), hexDigit (n / 0x10), hexDigit n]

end StringPiece

/-! ## Reading -/

/-- The unit that four hexadecimal digits spell. -/
def unit? (a b c d : Char) : Option UInt16 := do
  let n := (((← hexValue? a) * 16 + (← hexValue? b)) * 16 + (← hexValue? c)) * 16 + (← hexValue? d)
  return .ofNat n

/-- The pieces of a string and what follows its closing quote, where the opening quote has been read. Control characters
may not stand in a string, and escapes have to have their form. -/
def takeString? : List Char → Option (List StringPiece × List Char)
  | [] => none
  | '"' :: rest => some ([], rest)
  | '\\' :: 'u' :: a :: b :: c :: d :: rest =>
    match unit? a b c d with
    | some n => (takeString? rest).map fun (pieces, rest) => (.unit n :: pieces, rest)
    | none => none
  | '\\' :: c :: rest =>
    match ShortEscape.ofLetter? c with
    | some e => (takeString? rest).map fun (pieces, rest) => (.short e :: pieces, rest)
    | none => none
  | c :: rest =>
    if c = '\\' ∨ c.toNat < 0x20 then none
    else (takeString? rest).map fun (pieces, rest) => (.char c :: pieces, rest)

/-! ## Texts -/

/-- Whether a unit of UTF-16 is the first half of a pair. -/
def isHighHalf (n : UInt16) : Bool :=
  0xD800 ≤ n && n ≤ 0xDBFF

/-- Whether a unit of UTF-16 is the second half of a pair. -/
def isLowHalf (n : UInt16) : Bool :=
  0xDC00 ≤ n && n ≤ 0xDFFF

/-- The character that a pair of units spells. -/
def ofHalves (high low : UInt16) : Char :=
  Char.ofNat (0x10000 + (high.toNat - 0xD800) * 0x400 + (low.toNat - 0xDC00))

/-- The text of the pieces of a string, unless half a pair stands alone among them. -/
def textOfPieces? : List StringPiece → Option (List Char)
  | [] => some []
  | .char c :: pieces => (textOfPieces? pieces).map (c :: ·)
  | .short e :: pieces => (textOfPieces? pieces).map (e.char :: ·)
  | .unit n :: pieces =>
    if isHighHalf n then
      match pieces with
      | .unit m :: pieces =>
        if isLowHalf m then (textOfPieces? pieces).map (ofHalves n m :: ·) else none
      | _ => none
    else if isLowHalf n then none
    else (textOfPieces? pieces).map (Char.ofNat n.toNat :: ·)

/-- The pieces that a text is written as. -/
def piecesOfText (text : List Char) : List StringPiece :=
  text.map StringPiece.ofChar

/-- The characters of the pieces of a string. -/
def writtenPieces (pieces : List StringPiece) : List Char :=
  pieces.flatMap StringPiece.written

/-- What is written for a text is read as that text. -/
@[simp] theorem textOfPieces?_piecesOfText (text : List Char) : textOfPieces? (piecesOfText text) = some text := by
  induction text with
  | nil => rfl
  | cons c text ih =>
    have h : piecesOfText (c :: text) = StringPiece.ofChar c :: piecesOfText text := rfl
    rw [h, StringPiece.ofChar]
    split
    · next e he => simp [textOfPieces?, ih, ShortEscape.char_of_ofChar? he]
    · split
      · next hc =>
        have hn : (UInt16.ofNat c.toNat).toNat = c.toNat := by
          simp only [UInt16.toNat_ofNat']
          omega
        have high : isHighHalf (.ofNat c.toNat) = false := by
          simp only [isHighHalf, Bool.and_eq_false_iff, decide_eq_false_iff_not, UInt16.le_iff_toNat_le, hn]
          left
          simp only [UInt16.reduceToNat]
          omega
        have low : isLowHalf (.ofNat c.toNat) = false := by
          simp only [isLowHalf, Bool.and_eq_false_iff, decide_eq_false_iff_not, UInt16.le_iff_toNat_le, hn]
          left
          simp only [UInt16.reduceToNat]
          omega
        rw [textOfPieces?.eq_def]
        simp only [high, low, hn, ih, Char.ofNat_toNat, Bool.false_eq_true, if_false, Option.map_some]
      · simp [textOfPieces?, ih]

end RecipeScript
