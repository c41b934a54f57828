import RecipeScript.Files
import RecipeScript.Proofs.CaseTables
import RecipeScript.Proofs.Encoding

/-!
# Bytes as texts

The converse of what `RecipeScript.Proofs.Encoding` shows: bytes that are decoded at all are the
encoding of what they are decoded to. So bytes are the encoding of a text exactly if they can be
decoded, and a fault is only ever found in bytes that encode nothing.

The decoder walks byte by byte. It is followed through one character at a time: the lead byte says
how many bytes are owed, each byte that is owed is in its range, and the bounds on the first of them
rule out what would be overlong, a surrogate, or too large.
-/

namespace RecipeScript

namespace Utf8

/-! ## One byte -/

section Byte

variable {index : Nat} {p : Unfinished} {bs : List UInt8} {cs : List Char}

/-- A byte that is owed, and not the last one. -/
theorem exists_middle {m : Nat} (h : decodeFrom index (some p) bs = .ok cs) (howed : p.owed = m + 1) :
    ∃ b more, bs = b :: more ∧ p.low ≤ b.toNat ∧ b.toNat ≤ p.high ∧
      decodeFrom index (some ⟨p.value * 64 + (b.toNat - 0x80), p.seen + 1, m, 0x80, 0xBF⟩) more = .ok cs := by
  cases bs with
  | nil => cases h
  | cons b more =>
      rw [decodeFrom] at h
      split at h
      · rename_i hrange
        rw [howed] at h
        exact ⟨b, more, rfl, hrange.1, hrange.2, h⟩
      · cases h

/-- The last byte that is owed. -/
theorem exists_last (h : decodeFrom index (some p) bs = .ok cs) (howed : p.owed = 0) :
    ∃ b more ds, bs = b :: more ∧ p.low ≤ b.toNat ∧ b.toNat ≤ p.high ∧
      cs = Char.ofNat (p.value * 64 + (b.toNat - 0x80)) :: ds ∧
      decodeFrom (index + p.seen + 1) none more = .ok ds := by
  cases bs with
  | nil => cases h
  | cons b more =>
      rw [decodeFrom] at h
      split at h
      · rename_i hrange
        rw [howed] at h
        dsimp only at h
        cases hmore : decodeFrom (index + p.seen + 1) none more with
        | error fault => rw [hmore] at h; cases h
        | ok ds =>
            rw [hmore] at h
            exact ⟨b, more, ds, rfl, hrange.1, hrange.2, (Except.ok.inj h).symm, hmore⟩
      · cases h

end Byte

/-- A lead byte opens a character of two, three or four bytes. -/
theorem ofLead?_cases {n : Nat} {p : Unfinished} (h : Unfinished.ofLead? n = some p) :
    (∃ k, 2 ≤ k ∧ k < 32 ∧ n = 0xC0 + k ∧ p = ⟨k, 1, 0, 0x80, 0xBF⟩)
    ∨ (∃ k, k < 16 ∧ n = 0xE0 + k ∧
      p = ⟨k, 1, 1, if k = 0 then 0xA0 else 0x80, if k = 13 then 0x9F else 0xBF⟩)
    ∨ (∃ k, k < 5 ∧ n = 0xF0 + k ∧
      p = ⟨k, 1, 2, if k = 0 then 0x90 else 0x80, if k = 4 then 0x8F else 0xBF⟩) := by
  by_cases htwo : 0xC2 ≤ n ∧ n ≤ 0xDF
  · obtain ⟨k, rfl⟩ : ∃ k, n = 0xC0 + k := ⟨n - 0xC0, by omega⟩
    rw [ofLead?_two (by omega) (by omega)] at h
    exact Or.inl ⟨k, by omega, by omega, rfl, (Option.some.inj h).symm⟩
  by_cases hthree : 0xE0 ≤ n ∧ n ≤ 0xEF
  · obtain ⟨k, rfl⟩ : ∃ k, n = 0xE0 + k := ⟨n - 0xE0, by omega⟩
    rw [ofLead?_three (by omega)] at h
    exact Or.inr (Or.inl ⟨k, by omega, rfl, (Option.some.inj h).symm⟩)
  by_cases hfour : 0xF0 ≤ n ∧ n ≤ 0xF4
  · obtain ⟨k, rfl⟩ : ∃ k, n = 0xF0 + k := ⟨n - 0xF0, by omega⟩
    rw [ofLead?_four (by omega)] at h
    exact Or.inr (Or.inr ⟨k, by omega, rfl, (Option.some.inj h).symm⟩)
  -- no other byte leads
  unfold Unfinished.ofLead? at h
  rw [if_neg (by omega), if_neg (by omega), if_neg (by omega), if_neg (by omega), if_neg (by omega),
    if_neg (by omega), if_neg (by omega)] at h
  cases h

/-! ## One character -/

theorem ofNat_eq_of_toNat {n : Nat} {b : UInt8} (h : n = b.toNat) : UInt8.ofNat n = b := by
  rw [h, UInt8.ofNat_toNat]

-- the bytes of a character, put together from the parts that the decoder takes them apart into

theorem encodeChar_two {k : Nat} {a b : UInt8} (hlo : 2 ≤ k) (hhi : k < 32) (ha : a.toNat = 0xC0 + k)
    (hb : 0x80 ≤ b.toNat ∧ b.toNat ≤ 0xBF) :
    encodeChar (Char.ofNat (k * 64 + (b.toNat - 0x80))) = [a, b] := by
  have hn := toNat_ofNat_of_valid (n := k * 64 + (b.toNat - 0x80)) (by unfold Nat.isValidChar; omega)
  unfold encodeChar
  rw [hn, if_neg (by omega), if_pos (by omega)]
  dsimp only
  rw [ofNat_eq_of_toNat (b := a) (by omega), ofNat_eq_of_toNat (b := b) (by omega)]

theorem encodeChar_three {k : Nat} {a b c : UInt8} (hhi : k < 16) (ha : a.toNat = 0xE0 + k)
    (hb : (if k = 0 then 0xA0 else 0x80) ≤ b.toNat ∧ b.toNat ≤ if k = 13 then 0x9F else 0xBF)
    (hc : 0x80 ≤ c.toNat ∧ c.toNat ≤ 0xBF) :
    encodeChar (Char.ofNat ((k * 64 + (b.toNat - 0x80)) * 64 + (c.toNat - 0x80))) = [a, b, c] := by
  have hn := toNat_ofNat_of_valid (n := (k * 64 + (b.toNat - 0x80)) * 64 + (c.toNat - 0x80))
    (by unfold Nat.isValidChar; split at hb <;> split at hb <;> omega)
  have hlow : 0x20 ≤ k * 64 + (b.toNat - 0x80) := by split at hb <;> omega
  have hb : 0x80 ≤ b.toNat ∧ b.toNat ≤ 0xBF := by split at hb <;> split at hb <;> omega
  unfold encodeChar
  rw [hn, if_neg (by omega), if_neg (by omega), if_pos (by omega)]
  dsimp only
  rw [ofNat_eq_of_toNat (b := a) (by omega), ofNat_eq_of_toNat (b := b) (by omega), ofNat_eq_of_toNat (b := c) (by omega)]

theorem encodeChar_four {k : Nat} {a b c d : UInt8} (hhi : k < 5) (ha : a.toNat = 0xF0 + k)
    (hb : (if k = 0 then 0x90 else 0x80) ≤ b.toNat ∧ b.toNat ≤ if k = 4 then 0x8F else 0xBF)
    (hc : 0x80 ≤ c.toNat ∧ c.toNat ≤ 0xBF) (hd : 0x80 ≤ d.toNat ∧ d.toNat ≤ 0xBF) :
    encodeChar (Char.ofNat
        (((k * 64 + (b.toNat - 0x80)) * 64 + (c.toNat - 0x80)) * 64 + (d.toNat - 0x80))) =
      [a, b, c, d] := by
  have hn := toNat_ofNat_of_valid
    (n := ((k * 64 + (b.toNat - 0x80)) * 64 + (c.toNat - 0x80)) * 64 + (d.toNat - 0x80))
    (by unfold Nat.isValidChar; split at hb <;> split at hb <;> omega)
  have hlow : 0x10 ≤ k * 64 + (b.toNat - 0x80) := by split at hb <;> omega
  have hb : 0x80 ≤ b.toNat ∧ b.toNat ≤ 0xBF := by split at hb <;> split at hb <;> omega
  unfold encodeChar
  rw [hn, if_neg (by omega), if_neg (by omega), if_neg (by omega)]
  dsimp only
  rw [ofNat_eq_of_toNat (b := a) (by omega), ofNat_eq_of_toNat (b := b) (by omega), ofNat_eq_of_toNat (b := c) (by omega),
    ofNat_eq_of_toNat (b := d) (by omega)]

/-- What is decoded begins with the bytes of its first character. -/
theorem exists_encodeChar {index : Nat} {b : UInt8} {bs : List UInt8} {cs : List Char}
    (h : decodeFrom index none (b :: bs) = .ok cs) : ∃ c ds more index',
      cs = c :: ds ∧ b :: bs = encodeChar c ++ more ∧ decodeFrom index' none more = .ok ds := by
  rw [decodeFrom] at h
  split at h
  · rename_i hascii
    cases hmore : decodeFrom (index + 1) none bs with
    | error fault => rw [hmore] at h; cases h
    | ok ds =>
        rw [hmore] at h
        refine ⟨Char.ofNat b.toNat, ds, bs, index + 1, (Except.ok.inj h).symm, ?_, hmore⟩
        have hn := toNat_ofNat_of_valid (n := b.toNat) (by unfold Nat.isValidChar; omega)
        rw [encodeChar_of_ascii (by omega), hn, UInt8.ofNat_toNat]
        rfl
  · split at h
    · cases h
    · rename_i p hlead
      rcases ofLead?_cases hlead with
        ⟨k, hlo, hhi, hk, rfl⟩ | ⟨k, hhi, hk, rfl⟩ | ⟨k, hhi, hk, rfl⟩
      · obtain ⟨b₂, more, ds, rfl, hlow, hhigh, rfl, hmore⟩ := exists_last h rfl
        refine ⟨_, ds, more, _, rfl, ?_, hmore⟩
        rw [encodeChar_two hlo hhi hk ⟨hlow, hhigh⟩]
        rfl
      · obtain ⟨b₂, more, rfl, hlow, hhigh, h⟩ := exists_middle h rfl
        obtain ⟨b₃, more, ds, rfl, hlow', hhigh', rfl, hmore⟩ := exists_last h rfl
        refine ⟨_, ds, more, _, rfl, ?_, hmore⟩
        rw [encodeChar_three hhi hk ⟨hlow, hhigh⟩ ⟨hlow', hhigh'⟩]
        rfl
      · obtain ⟨b₂, more, rfl, hlow, hhigh, h⟩ := exists_middle h rfl
        obtain ⟨b₃, more, rfl, hlow', hhigh', h⟩ := exists_middle h rfl
        obtain ⟨b₄, more, ds, rfl, hlow'', hhigh'', rfl, hmore⟩ := exists_last h rfl
        refine ⟨_, ds, more, _, rfl, ?_, hmore⟩
        rw [encodeChar_four hhi hk ⟨hlow, hhigh⟩ ⟨hlow', hhigh'⟩ ⟨hlow'', hhigh''⟩]
        rfl

/-! ## All bytes -/

theorem eq_flatMap_of_decodeFrom {index : Nat} {bs : List UInt8} {cs : List Char}
    (h : decodeFrom index none bs = .ok cs) : bs = cs.flatMap encodeChar := by
  induction cs generalizing index bs with
  | nil =>
      cases bs with
      | nil => rfl
      | cons b bs =>
          obtain ⟨c, ds, _, _, hcs, -⟩ := exists_encodeChar h
          cases hcs
  | cons c cs ih =>
      cases bs with
      | nil => cases h
      | cons b bs =>
          obtain ⟨d, ds, more, index', hcs, hbytes, hmore⟩ := exists_encodeChar h
          obtain ⟨rfl, rfl⟩ := List.cons.inj hcs
          rw [hbytes, List.flatMap_cons, ih hmore]

/-- **Bytes are decoded to a text exactly if they encode it.** -/
theorem decode_eq_ok_iff {bytes : List UInt8} {text : String} :
    decode bytes = .ok text ↔ bytes = encode text := by
  constructor
  · intro h
    unfold decode at h
    cases hcs : decodeFrom 0 none bytes with
    | error fault => rw [hcs] at h; cases h
    | ok cs =>
        rw [hcs] at h
        have htext : text.toList = cs := by
          rw [← Except.ok.inj h, String.toList_ofList]
        unfold encode
        rw [htext]
        exact eq_flatMap_of_decodeFrom hcs
  · rintro rfl
    exact decode_encode text

end Utf8

/-! ## Files as texts -/

/-- The files that hold the given texts, with nothing besides. -/
def Files.ofTexts (texts : List (String × String)) : Files :=
  ofAnswers (texts.map fun (path, text) => (path, true, .ok (Utf8.encode text)))

section Files

variable {files : Files} {path : String}

theorem readText_of_read {text : String} (h : files.read path = .ok (Utf8.encode text)) :
    files.readText path = .ok text := by
  unfold Files.readText
  rw [h]
  simp only [bind, Except.bind, Utf8.decode_encode]
  rfl

theorem readText_of_error {cause : ReadFault} (h : files.read path = .error cause) :
    files.readText path = .error cause := by
  unfold Files.readText
  rw [h]
  rfl

theorem readText_of_not_text {bytes : List UInt8} (h : files.read path = .ok bytes)
    (hbytes : ∀ text, bytes ≠ Utf8.encode text) : files.readText path = .error .notText := by
  unfold Files.readText
  rw [h]
  simp only [bind, Except.bind]
  cases hdecode : Utf8.decode bytes with
  | ok text => exact absurd (Utf8.decode_eq_ok_iff.mp hdecode) (hbytes text)
  | error fault => rfl

end Files

end RecipeScript
