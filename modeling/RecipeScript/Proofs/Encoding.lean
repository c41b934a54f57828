import RecipeScript.Proofs.Blanks
import RecipeScript.Text.Lines
import RecipeScript.Text.Utf8

/-!
# Texts as bytes

A script is read as characters and a console session as bytes. The two see the same lines: decoding
undoes encoding, and the bytes of a line feed and of a carriage return occur in no other character,
so it does not matter whether a text is cut into lines before it is encoded or afterwards.
-/

namespace RecipeScript.Utf8

/-! ## Decoding undoes encoding -/

theorem toNat_lt_or (c : Char) : c.toNat < 0xD800 ∨ (0xDFFF < c.toNat ∧ c.toNat < 0x110000) := c.valid

theorem toNat_ofNat_of_lt {n : Nat} (h : n < 256) : (UInt8.ofNat n).toNat = n := by
  rw [UInt8.toNat_ofNat']
  exact Nat.mod_eq_of_lt h

theorem decodeFrom_middle {index : Nat} {p : Unfinished} {n m : Nat} {bs : List UInt8}
    (hn : n < 256) (hlow : p.low ≤ n) (hhigh : n ≤ p.high) (howed : p.owed = m + 1) :
    decodeFrom index (some p) (UInt8.ofNat n :: bs) =
      decodeFrom index (some ⟨p.value * 64 + (n - 0x80), p.seen + 1, m, 0x80, 0xBF⟩) bs := by
  rw [decodeFrom, toNat_ofNat_of_lt hn, if_pos ⟨hlow, hhigh⟩, howed]

theorem decodeFrom_last {index : Nat} {p : Unfinished} {n : Nat} {bs : List UInt8}
    (hn : n < 256) (hlow : p.low ≤ n) (hhigh : n ≤ p.high) (howed : p.owed = 0) :
    decodeFrom index (some p) (UInt8.ofNat n :: bs) =
      (Char.ofNat (p.value * 64 + (n - 0x80)) :: ·) <$> decodeFrom (index + p.seen + 1) none bs := by
  rw [decodeFrom, toNat_ofNat_of_lt hn, if_pos ⟨hlow, hhigh⟩, howed]

theorem decodeFrom_lead {index : Nat} {p : Unfinished} {n : Nat} {bs : List UInt8}
    (hn : n < 256) (hascii : 0x80 ≤ n) (hlead : Unfinished.ofLead? n = some p) :
    decodeFrom index none (UInt8.ofNat n :: bs) = decodeFrom index (some p) bs := by
  rw [decodeFrom, toNat_ofNat_of_lt hn, if_neg (by omega), hlead]

theorem ofLead?_two {k : Nat} (hlo : 2 ≤ k) (hhi : k < 32) :
    Unfinished.ofLead? (0xC0 + k) = some ⟨k, 1, 0, 0x80, 0xBF⟩ := by
  unfold Unfinished.ofLead?
  rw [if_pos (by omega), show 0xC0 + k - 0xC0 = k by omega]

theorem ofLead?_three {k : Nat} (hk : k < 16) : Unfinished.ofLead? (0xE0 + k) =
    some ⟨k, 1, 1, if k = 0 then 0xA0 else 0x80, if k = 13 then 0x9F else 0xBF⟩ := by
  unfold Unfinished.ofLead?
  rw [if_neg (by omega)]
  by_cases h0 : k = 0
  · subst h0; rfl
  · by_cases h13 : k = 13
    · subst h13; rfl
    · rw [if_neg (by omega), if_neg (by omega), if_pos (by omega), if_neg h0, if_neg h13,
        show 0xE0 + k - 0xE0 = k by omega]

theorem ofLead?_four {k : Nat} (hk : k < 5) : Unfinished.ofLead? (0xF0 + k) =
    some ⟨k, 1, 2, if k = 0 then 0x90 else 0x80, if k = 4 then 0x8F else 0xBF⟩ := by
  unfold Unfinished.ofLead?
  rw [if_neg (by omega), if_neg (by omega), if_neg (by omega), if_neg (by omega)]
  by_cases h0 : k = 0
  · subst h0; rfl
  · by_cases h4 : k = 4
    · subst h4; rfl
    · rw [if_neg (by omega), if_pos (by omega), if_neg h0, if_neg h4,
        show 0xF0 + k - 0xF0 = k by omega]

/-- The bytes of a character are read as that character, whatever comes after them. -/
theorem decodeFrom_encodeChar (index : Nat) (c : Char) (bs : List UInt8) :
    decodeFrom index none (encodeChar c ++ bs) =
      (c :: ·) <$> decodeFrom (index + (encodeChar c).length) none bs := by
  have hvalid := toNat_lt_or c
  have hback : ∀ n, n = c.toNat → Char.ofNat n = c := by
    rintro n rfl
    exact Char.ofNat_toNat c
  -- one to four bytes; the bounds that the lead byte puts on the next one hold because no surrogate
  -- is a character
  unfold encodeChar
  by_cases h1 : c.toNat < 0x80
  · rw [if_pos h1, List.singleton_append, decodeFrom, toNat_ofNat_of_lt (by omega), if_pos h1,
      hback _ rfl]
    rfl
  rw [if_neg h1]
  by_cases h2 : c.toNat < 0x800
  · rw [if_pos h2]
    show decodeFrom index none (UInt8.ofNat _ :: UInt8.ofNat _ :: bs) = _
    rw [decodeFrom_lead (by omega) (by omega) (ofLead?_two (k := c.toNat / 0x40) (by omega) (by omega)),
      decodeFrom_last (by omega) (by simp only; omega) (by simp only; omega) rfl]
    simp only
    rw [hback _ (by omega)]
    rfl
  rw [if_neg h2]
  by_cases h3 : c.toNat < 0x10000
  · rw [if_pos h3]
    show decodeFrom index none (UInt8.ofNat _ :: UInt8.ofNat _ :: UInt8.ofNat _ :: bs) = _
    rw [decodeFrom_lead (by omega) (by omega) (ofLead?_three (k := c.toNat / 0x1000) (by omega)),
      decodeFrom_middle (m := 0) (by omega) (by simp only; split <;> omega)
        (by simp only; split <;> omega) rfl,
      decodeFrom_last (by omega) (by simp only; omega) (by simp only; omega) rfl]
    simp only
    rw [hback _ (by omega)]
    rfl
  · rw [if_neg h3]
    show decodeFrom index none (UInt8.ofNat _ :: UInt8.ofNat _ :: UInt8.ofNat _ :: UInt8.ofNat _ :: bs) = _
    rw [decodeFrom_lead (by omega) (by omega) (ofLead?_four (k := c.toNat / 0x40000) (by omega)),
      decodeFrom_middle (m := 1) (by omega) (by simp only; split <;> omega)
        (by simp only; split <;> omega) rfl,
      decodeFrom_middle (m := 0) (by omega) (by simp only; omega) (by simp only; omega) rfl,
      decodeFrom_last (by omega) (by simp only; omega) (by simp only; omega) rfl]
    simp only
    rw [hback _ (by omega)]
    rfl

theorem decodeFrom_flatMap (index : Nat) (cs : List Char) :
    decodeFrom index none (cs.flatMap encodeChar) = .ok cs := by
  induction cs generalizing index with
  | nil => rfl
  | cons c cs ih =>
      rw [List.flatMap_cons, decodeFrom_encodeChar, ih]
      rfl

theorem decode_flatMap (cs : List Char) : decode (cs.flatMap encodeChar) = .ok (String.ofList cs) := by
  unfold decode
  rw [decodeFrom_flatMap]
  rfl

/-- **Decoding undoes encoding.** -/
@[simp] theorem decode_encode (s : String) : decode (encode s) = .ok s := by
  unfold encode
  rw [decode_flatMap, String.ofList_toList]

/-! ## Bytes below 0x80 -/

theorem encodeChar_ne_nil (c : Char) : encodeChar c ≠ [] := by
  unfold encodeChar
  dsimp only
  split
  · simp
  · split
    · simp
    · split <;> simp

theorem encodeChar_of_ascii {c : Char} (hc : c.toNat < 0x80) : encodeChar c = [UInt8.ofNat c.toNat] := by
  unfold encodeChar
  rw [if_pos hc]

/-- Outside ASCII, all bytes of a character are. -/
theorem le_of_mem_encodeChar {c : Char} (hc : 0x80 ≤ c.toNat) : ∀ b ∈ encodeChar c, 0x80 ≤ b.toNat := by
  have hvalid := toNat_lt_or c
  have hbyte : ∀ n, 0x80 ≤ n → n < 256 → 0x80 ≤ (UInt8.ofNat n).toNat := by
    intro n hlo hhi
    rw [toNat_ofNat_of_lt hhi]
    exact hlo
  unfold encodeChar
  rw [if_neg (by omega)]
  split
  · simp only [List.forall_mem_cons, List.not_mem_nil, false_implies, implies_true, and_true]
    exact ⟨hbyte _ (by omega) (by omega), hbyte _ (by omega) (by omega)⟩
  · split
    · simp only [List.forall_mem_cons, List.not_mem_nil, false_implies, implies_true, and_true]
      exact ⟨hbyte _ (by omega) (by omega), hbyte _ (by omega) (by omega), hbyte _ (by omega) (by omega)⟩
    · simp only [List.forall_mem_cons, List.not_mem_nil, false_implies, implies_true, and_true]
      exact ⟨hbyte _ (by omega) (by omega), hbyte _ (by omega) (by omega), hbyte _ (by omega) (by omega),
        hbyte _ (by omega) (by omega)⟩

/-- The byte of an ASCII character occurs in no other character. -/
theorem eq_of_mem_encodeChar {c d : Char} {b : UInt8} (hd : encodeChar d = [b]) (hb : b.toNat < 0x80)
    (h : b ∈ encodeChar c) : c = d := by
  by_cases hc : c.toNat < 0x80
  · rw [encodeChar_of_ascii hc, List.mem_singleton] at h
    have hcd := decodeFrom_flatMap 0 [c]
    rw [List.flatMap_singleton, encodeChar_of_ascii hc, ← h, ← hd] at hcd
    have hdd := decodeFrom_flatMap 0 [d]
    rw [List.flatMap_singleton, hcd] at hdd
    exact (List.cons.inj (Except.ok.inj hdd)).1
  · have := le_of_mem_encodeChar (by omega) b h
    omega

/-! ## Lines -/

theorem splitOn_encode (cs : List Char) :
    splitOn (· == (0x0A : UInt8)) (cs.flatMap encodeChar) =
      (splitOn (· == '\n') cs).map (·.flatMap encodeChar) := by
  induction cs with
  | nil => rfl
  | cons c cs ih =>
      rw [List.flatMap_cons]
      -- a line feed is a byte of its own and part of no other character
      by_cases hc : c = '\n'
      · subst hc
        rw [show encodeChar '\n' = [0x0A] from rfl, List.singleton_append, splitOn_cons_sep _ (by rfl),
          splitOn_cons_sep _ (by rfl), ih]
        rfl
      · obtain ⟨piece, pieces, h⟩ := exists_splitOn_eq_cons (· == '\n') cs
        rw [h, List.map_cons] at ih
        rw [splitOn_append_of_not (fun b hb => ?_) ih, splitOn_cons_of_not (by simpa using hc) h]
        · rfl
        · rw [beq_eq_false_iff_ne]
          rintro rfl
          exact hc (eq_of_mem_encodeChar rfl (by decide) hb)

theorem dropReturn_encode (cs : List Char) :
    Lines.dropReturn (0x0D : UInt8) (cs.flatMap encodeChar) =
      (Lines.dropReturn '\r' cs).flatMap encodeChar := by
  rcases List.eq_nil_or_concat cs with rfl | ⟨ds, d, rfl⟩
  · rfl
  · unfold Lines.dropReturn
    rw [List.concat_eq_append, List.flatMap_append, List.flatMap_singleton, List.getLast?_concat]
    by_cases hd : d = '\r'
    · subst hd
      rw [if_pos rfl, show encodeChar '\r' = [0x0D] from rfl, List.getLast?_concat, if_pos rfl,
        List.dropLast_concat, List.dropLast_concat]
    · have hlast : (ds.flatMap encodeChar ++ encodeChar d).getLast? ≠ some 0x0D := by
        rw [List.getLast?_append_of_ne_nil _ (encodeChar_ne_nil d)]
        intro h
        exact hd (eq_of_mem_encodeChar rfl (by decide) (List.mem_of_getLast? h))
      rw [if_neg hlast, if_neg (fun h => hd (Option.some.inj h)), List.flatMap_append,
        List.flatMap_singleton]

theorem flatMap_encodeChar_eq_nil_iff {cs : List Char} : cs.flatMap encodeChar = [] ↔ cs = [] := by
  cases cs with
  | nil => exact ⟨fun _ => rfl, fun _ => rfl⟩
  | cons c cs =>
      rw [List.flatMap_cons, List.append_eq_nil_iff]
      exact ⟨fun h => absurd h.1 (encodeChar_ne_nil c), fun h => absurd h (by simp)⟩

theorem cut_encode (cs : List Char) :
    (Lines.cut (0x0A : UInt8) 0x0D (cs.flatMap encodeChar)).all =
      (Lines.cut '\n' '\r' cs).all.map (·.flatMap encodeChar) := by
  have hfinished : (Lines.cut (0x0A : UInt8) 0x0D (cs.flatMap encodeChar)).finished =
      (Lines.cut '\n' '\r' cs).finished.map (·.flatMap encodeChar) := by
    show List.map _ (List.dropLast _) = List.map _ (List.map _ (List.dropLast _))
    rw [splitOn_encode, ← List.map_dropLast, List.map_map, List.map_map]
    exact List.map_congr_left fun line _ => dropReturn_encode line
  have hunfinished : (Lines.cut (0x0A : UInt8) 0x0D (cs.flatMap encodeChar)).unfinished =
      (Lines.cut '\n' '\r' cs).unfinished.flatMap encodeChar := by
    show (List.getLast? _).getD [] = ((List.getLast? _).getD []).flatMap _
    rw [splitOn_encode, List.getLast?_map]
    cases (splitOn (· == '\n') cs).getLast? <;> rfl
  unfold Lines.all
  rw [hfinished, hunfinished]
  by_cases hnil : (Lines.cut '\n' '\r' cs).unfinished = []
  · rw [hnil]
    rfl
  · rw [if_neg (by rw [List.isEmpty_iff, flatMap_encodeChar_eq_nil_iff]; exact hnil),
      if_neg (by rw [List.isEmpty_iff]; exact hnil), List.map_append]
    rfl

/-- **Cutting the bytes of a text into lines gives the lines of the text.** -/
theorem cut_encode_decode (text : String) :
    (Lines.cut (0x0A : UInt8) 0x0D (encode text)).all.map decode = (linesOf text).map .ok := by
  unfold encode linesOf
  rw [cut_encode, List.map_map, List.map_map]
  exact List.map_congr_left fun line _ => decode_flatMap line

end RecipeScript.Utf8
