/-!
# UTF-8

Files and standard input are bytes, and the language is about characters. The decoder walks over the bytes once and
keeps, inside a character, how many bytes are still owed and which ones the next may be; that range is narrowed
after four of the leading bytes, which rules out overlong forms, surrogates and numbers above U+10FFFF.

A text that is not UTF-8 has a first place where that shows, and the fault says where: the index at which the last
sound character ended, and how many bytes from there cannot be the start of one, or none if the text stops in the
middle of a character that could still have become sound.
-/

namespace RecipeScript.Utf8

/-- Where and how bytes stop being UTF-8. -/
structure Fault where
  /-- The number of bytes that are sound text. -/
  index : Nat
  /-- How many bytes after them are not the start of a character, or `none` if the text ends too early. -/
  width : Option Nat
deriving DecidableEq, Repr

/-- The fault in words. -/
def Fault.message (f : Fault) : String :=
  match f.width with
  | some n => "invalid utf-8 sequence of " ++ toString n ++ " bytes from index " ++ toString f.index
  | none => "incomplete utf-8 byte sequence from index " ++ toString f.index

/-- Where the decoder stands inside a character. -/
structure Unfinished where
  /-- The bits read so far. -/
  value : Nat
  /-- How many bytes have been read. -/
  seen : Nat
  /-- How many bytes are owed after the next one. -/
  owed : Nat
  /-- The least byte that may come next. -/
  low : Nat
  /-- The greatest byte that may come next. -/
  high : Nat

/-- The state after the first byte of a character of more than one byte. -/
def Unfinished.ofLead? (b : Nat) : Option Unfinished :=
  if 0xC2 ≤ b ∧ b ≤ 0xDF then some ⟨b - 0xC0, 1, 0, 0x80, 0xBF⟩
  else if b = 0xE0 then some ⟨0, 1, 1, 0xA0, 0xBF⟩
  else if b = 0xED then some ⟨0xD, 1, 1, 0x80, 0x9F⟩
  else if 0xE1 ≤ b ∧ b ≤ 0xEF then some ⟨b - 0xE0, 1, 1, 0x80, 0xBF⟩
  else if b = 0xF0 then some ⟨0, 1, 2, 0x90, 0xBF⟩
  else if 0xF1 ≤ b ∧ b ≤ 0xF3 then some ⟨b - 0xF0, 1, 2, 0x80, 0xBF⟩
  else if b = 0xF4 then some ⟨4, 1, 2, 0x80, 0x8F⟩
  else none

/-- The characters of the bytes that are left, where `index` bytes were sound before the current character. -/
def decodeFrom (index : Nat) : Option Unfinished → List UInt8 → Except Fault (List Char)
  | none, [] => .ok []
  | some _, [] => .error ⟨index, none⟩
  | none, b :: bs =>
    if b.toNat < 0x80 then (Char.ofNat b.toNat :: ·) <$> decodeFrom (index + 1) none bs
    else match Unfinished.ofLead? b.toNat with
      | none => .error ⟨index, some 1⟩
      | some p => decodeFrom index (some p) bs
  | some p, b :: bs =>
    if p.low ≤ b.toNat ∧ b.toNat ≤ p.high then
      let value := p.value * 64 + (b.toNat - 0x80)
      match p.owed with
      | 0 => (Char.ofNat value :: ·) <$> decodeFrom (index + p.seen + 1) none bs
      | owed + 1 => decodeFrom index (some ⟨value, p.seen + 1, owed, 0x80, 0xBF⟩) bs
    else .error ⟨index, some p.seen⟩

/-- The text that bytes spell, or the first fault in them. -/
def decode (bytes : List UInt8) : Except Fault String :=
  String.ofList <$> decodeFrom 0 none bytes

/-- The bytes of one character. -/
def encodeChar (c : Char) : List UInt8 :=
  let n := c.toNat
  let tail (unit : Nat) : UInt8 := UInt8.ofNat (0x80 + n / unit % 0x40)
  if n < 0x80 then [UInt8.ofNat n]
  else if n < 0x800 then [UInt8.ofNat (0xC0 + n / 0x40), tail 1]
  else if n < 0x10000 then [UInt8.ofNat (0xE0 + n / 0x1000), tail 0x40, tail 1]
  else [UInt8.ofNat (0xF0 + n / 0x40000), tail 0x1000, tail 0x40, tail 1]

/-- The bytes of a text. -/
def encode (s : String) : List UInt8 :=
  s.toList.flatMap encodeChar

end RecipeScript.Utf8
