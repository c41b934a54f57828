import RecipeScript.Json.Escape
import RecipeScript.Json.Numeral
import RecipeScript.Proofs.Digits

/-!
# Numerals and strings are read back

What is written for a numeral or for the pieces of a string is read as that numeral and as those
pieces, and nothing that follows is touched. A numeral has no closing sign, so this needs that what
follows cannot belong to it (`EndsNumeral`); a string ends at its quote, whatever comes after that.
-/

namespace RecipeScript

/-! ## Numerals -/

namespace Numeral

/-- The numerals that JSON knows: digits throughout, a whole part without superfluous zeros, and no sign
of an exponent that is not there. -/
structure IsProper (n : Numeral) : Prop where
  whole_ne_nil : n.whole ≠ []
  whole_digits : ∀ c ∈ n.whole, c.isDigit = true
  whole_zero : n.whole.head? = some '0' → n.whole = ['0']
  fraction_digits : ∀ c ∈ n.fraction, c.isDigit = true
  exponent_digits : ∀ c ∈ n.exponent, c.isDigit = true
  exponent_sign : n.exponent = [] → n.exponentNegative = false

/-- A text that does not go on with a numeral. -/
def EndsNumeral (rest : List Char) : Prop :=
  ∀ c, rest.head? = some c → c.isDigit = false ∧ c ≠ '.' ∧ c ≠ 'e' ∧ c ≠ 'E'

theorem isProper_ofNat (n : Nat) : (ofNat n).IsProper where
  whole_ne_nil := Nat.toDigits_ne_nil
  whole_digits := isDigit_of_mem_toDigits
  whole_zero := toDigits_of_head?_eq_zero
  fraction_digits := fun _ hc => absurd hc List.not_mem_nil
  exponent_digits := fun _ hc => absurd hc List.not_mem_nil
  exponent_sign := fun _ => rfl

theorem EndsNumeral.endsDigits {rest : List Char} (h : EndsNumeral rest) : EndsDigits rest :=
  fun c hc => (h c hc).1

section Parts

variable {digits rest : List Char}

theorem takeDigits_append (hdigits : ∀ c ∈ digits, c.isDigit = true) (hrest : EndsDigits rest) :
    takeDigits (digits ++ rest) = (digits, rest) := by
  rw [takeDigits, takeWhile_isDigit hdigits hrest, dropWhile_isDigit hdigits hrest]

theorem takeDigits1?_append (hne : digits ≠ []) (hdigits : ∀ c ∈ digits, c.isDigit = true)
    (hrest : EndsDigits rest) : takeDigits1? (digits ++ rest) = some (digits, rest) := by
  rw [takeDigits1?, takeDigits_append hdigits hrest]
  cases digits with
  | nil => exact absurd rfl hne
  | cons c digits => rfl

theorem takeWhole?_append (hne : digits ≠ []) (hdigits : ∀ c ∈ digits, c.isDigit = true)
    (hzero : digits.head? = some '0' → digits = ['0']) (hrest : EndsDigits rest) :
    takeWhole? (digits ++ rest) = some (digits, rest) := by
  rw [takeWhole?, takeDigits_append hdigits hrest]
  split
  · rename_i heq
    exact absurd (Prod.mk.inj heq).1 hne
  · rename_i heq
    obtain ⟨rfl, -⟩ := Prod.mk.inj heq
    exact absurd (hzero rfl) (by simp)
  · rfl

/-- The part after the point as it is written. -/
def fractionText (n : Numeral) : List Char :=
  if n.fraction.isEmpty then [] else '.' :: n.fraction

/-- The exponent as it is written. -/
def exponentText (n : Numeral) : List Char :=
  if n.exponent.isEmpty then [] else 'e' :: (if n.exponentNegative then ['-'] else []) ++ n.exponent

theorem takeFraction?_append {n : Numeral} (h : n.IsProper) (hrest : EndsDigits rest)
    (hpoint : rest.head? ≠ some '.') : takeFraction? (n.fractionText ++ rest) = some (n.fraction, rest) := by
  unfold fractionText
  by_cases hnil : n.fraction = []
  · rw [hnil, List.isEmpty_nil, if_pos rfl, List.nil_append, takeFraction?.eq_def]
    split
    · exact absurd rfl hpoint
    · rfl
  · rw [if_neg (by simpa using hnil), List.cons_append, takeFraction?]
    exact takeDigits1?_append hnil h.fraction_digits hrest

theorem takeExponent?_append {n : Numeral} (h : n.IsProper) (hrest : EndsNumeral rest) :
    takeExponent? (n.exponentText ++ rest) = some (n.exponentNegative, n.exponent, rest) := by
  unfold exponentText
  by_cases hnil : n.exponent = []
  · rw [hnil, List.isEmpty_nil, if_pos rfl, List.nil_append, h.exponent_sign hnil]
    cases rest with
    | nil => rfl
    | cons c rest =>
        obtain ⟨-, -, he, hE⟩ := hrest c rfl
        rw [takeExponent?.eq_def]
        dsimp only
        rw [if_neg (by rw [not_or]; exact ⟨he, hE⟩)]
  · have htake := takeDigits1?_append hnil h.exponent_digits hrest.endsDigits
    rw [if_neg (by simpa using hnil)]
    cases hsign : n.exponentNegative with
    | true =>
        show (takeDigits1? (n.exponent ++ rest)).map _ = _
        rw [htake]
        rfl
    | false =>
        -- no digit is a sign
        obtain ⟨d, ds, hexponent⟩ := List.exists_cons_of_ne_nil hnil
        have hd : d.isDigit = true := h.exponent_digits d (by rw [hexponent]; exact List.mem_cons_self)
        show takeExponent? ('e' :: (n.exponent ++ rest)) = _
        rw [hexponent] at htake ⊢
        rw [takeExponent?.eq_def]
        dsimp only
        rw [if_pos (Or.inl rfl)]
        split
        · rename_i heq
          rw [(List.cons.inj heq).1] at hd
          exact absurd hd (by decide)
        · rename_i heq
          rw [(List.cons.inj heq).1] at hd
          exact absurd hd (by decide)
        · rw [htake]
          rfl

end Parts

theorem text_eq (n : Numeral) : n.text =
    (if n.negative then ['-'] else []) ++ (n.whole ++ (n.fractionText ++ n.exponentText)) := by
  unfold text fractionText exponentText
  rw [List.append_assoc, List.append_assoc]

/-- The numeral in front, where its sign has been read. -/
def takeUnsigned? (negative : Bool) (cs : List Char) : Option (Numeral × List Char) := do
  let (whole, cs) ← takeWhole? cs
  let (fraction, cs) ← takeFraction? cs
  let (exponentNegative, exponent, cs) ← takeExponent? cs
  return (⟨negative, whole, fraction, exponentNegative, exponent⟩, cs)

theorem take?_minus (cs : List Char) : take? ('-' :: cs) = takeUnsigned? true cs := rfl

theorem take?_of_ne {c : Char} (cs : List Char) (h : c ≠ '-') :
    take? (c :: cs) = takeUnsigned? false (c :: cs) := by
  unfold take?
  split
  rename_i heq
  split at heq
  · rename_i hminus
    exact absurd (List.cons.inj hminus).1 h
  · obtain ⟨rfl, rfl⟩ := Prod.mk.inj heq
    rfl

/-- **What is written for a numeral is read as that numeral.** -/
theorem take?_text {n : Numeral} {rest : List Char} (h : n.IsProper) (hrest : EndsNumeral rest) :
    take? (n.text ++ rest) = some (n, rest) := by
  have hexponent : EndsDigits (n.exponentText ++ rest) := by
    unfold exponentText
    split
    · exact hrest.endsDigits
    · exact endsDigits_cons _ (by decide)
  have hpoint : (n.exponentText ++ rest).head? ≠ some '.' := by
    unfold exponentText
    split
    · exact fun hc => (hrest '.' hc).2.1 rfl
    · exact fun hc => absurd (Option.some.inj hc) (by decide)
  have hfraction : EndsDigits (n.fractionText ++ (n.exponentText ++ rest)) := by
    unfold fractionText
    split
    · exact hexponent
    · exact endsDigits_cons _ (by decide)
  have hunsigned : takeUnsigned? n.negative (n.whole ++ (n.fractionText ++ (n.exponentText ++ rest))) =
      some (n, rest) := by
    unfold takeUnsigned?
    rw [takeWhole?_append h.whole_ne_nil h.whole_digits h.whole_zero hfraction]
    show (takeFraction? _ >>= _) = _
    rw [takeFraction?_append h hexponent hpoint]
    show (takeExponent? _ >>= _) = _
    rw [takeExponent?_append h hrest]
    rfl
  rw [text_eq, List.append_assoc, List.append_assoc, List.append_assoc]
  cases hnegative : n.negative with
  | true =>
      rw [hnegative] at hunsigned
      rw [← hunsigned]
      exact take?_minus _
  | false =>
      -- no digit is a sign
      obtain ⟨d, ds, hds⟩ := List.exists_cons_of_ne_nil h.whole_ne_nil
      have hd : d ≠ '-' := by
        rintro rfl
        exact absurd (h.whole_digits '-' (by rw [hds]; exact List.mem_cons_self)) (by decide)
      rw [hnegative] at hunsigned
      rw [← hunsigned, if_neg Bool.false_ne_true, List.nil_append, hds, List.cons_append]
      exact take?_of_ne _ hd

/-- What a numeral begins with: its sign or a digit. -/
def Begins (c : Char) : Prop :=
  c = '-' ∨ c.isDigit = true

theorem Begins.ne {c d : Char} (h : Begins c) (hminus : d ≠ '-') (hdigit : d.isDigit = false) : c ≠ d := by
  intro hcd
  subst hcd
  rcases h with h | h
  · exact hminus h
  · rw [hdigit] at h
    exact Bool.false_ne_true h

theorem IsProper.exists_begins {n : Numeral} (h : n.IsProper) : ∃ c cs, n.text = c :: cs ∧ Begins c := by
  obtain ⟨d, ds, hds⟩ := List.exists_cons_of_ne_nil h.whole_ne_nil
  have hd : d.isDigit = true := h.whole_digits d (by rw [hds]; exact List.mem_cons_self)
  rw [text_eq, hds]
  cases n.negative with
  | true => exact ⟨'-', _, rfl, Or.inl rfl⟩
  | false => exact ⟨d, _, rfl, Or.inr hd⟩

end Numeral

/-! ## Strings -/

/-- A character that stands for itself is none of those that have to be escaped. -/
def StringPiece.IsProper : StringPiece → Prop
  | char c => c ≠ '"' ∧ c ≠ '\\' ∧ 0x20 ≤ c.toNat
  | _ => True

theorem hexValue?_digitChar : ∀ d, d < 16 → hexValue? (Nat.digitChar d) = some d := by decide

theorem hexValue?_hexDigit (n : Nat) : hexValue? (StringPiece.hexDigit n) = some (n % 16) :=
  hexValue?_digitChar (n % 16) (Nat.mod_lt n (by decide))

theorem unit?_hexDigits (n : UInt16) :
    unit? (StringPiece.hexDigit (n.toNat / 0x1000)) (StringPiece.hexDigit (n.toNat / 0x100))
      (StringPiece.hexDigit (n.toNat / 0x10)) (StringPiece.hexDigit n.toNat) = some n := by
  have hlt := n.toNat_lt
  have hvalue : ((n.toNat / 0x1000 % 16 * 16 + n.toNat / 0x100 % 16) * 16 + n.toNat / 0x10 % 16) * 16
      + n.toNat % 16 = n.toNat := by omega
  unfold unit?
  simp only [hexValue?_hexDigit, bind, Option.bind, hvalue, UInt16.ofNat_toNat]
  rfl

/-- No short escape is taken for a unit. -/
theorem takeString?_short (e : ShortEscape) (rest : List Char) : takeString? ('\\' :: e.letter :: rest) =
    (takeString? rest).map fun (pieces, rest) => (.short e :: pieces, rest) := by
  rw [takeString?.eq_def]
  cases e <;> rfl

theorem takeString?_char {c : Char} (h : (StringPiece.char c).IsProper) (rest : List Char) :
    takeString? (c :: rest) = (takeString? rest).map fun (pieces, rest) => (.char c :: pieces, rest) := by
  obtain ⟨hquote, hbackslash, hcontrol⟩ := h
  rw [takeString?.eq_def]
  split
  · rename_i heq
    cases heq
  · rename_i heq
    exact absurd (List.cons.inj heq).1 hquote
  · rename_i heq
    exact absurd (List.cons.inj heq).1 hbackslash
  · rename_i heq
    exact absurd (List.cons.inj heq).1 hbackslash
  · rename_i heq
    obtain ⟨rfl, rfl⟩ := List.cons.inj heq
    rw [if_neg (by rw [not_or]; exact ⟨hbackslash, by omega⟩)]

/-- **What is written for the pieces of a string is read as those pieces.** -/
theorem takeString?_writtenPieces {pieces : List StringPiece} (h : ∀ piece ∈ pieces, piece.IsProper)
    (rest : List Char) : takeString? (writtenPieces pieces ++ '"' :: rest) = some (pieces, rest) := by
  induction pieces with
  | nil => rfl
  | cons piece pieces ih =>
      have htail := ih fun other hother => h other (List.mem_cons_of_mem piece hother)
      unfold writtenPieces at htail ⊢
      rw [List.flatMap_cons, List.append_assoc]
      cases piece with
      | char c =>
          rw [StringPiece.written, List.singleton_append, takeString?_char (h _ List.mem_cons_self), htail]
          rfl
      | short e =>
          rw [StringPiece.written, List.cons_append, List.singleton_append, takeString?_short, htail]
          rfl
      | unit n =>
          rw [StringPiece.written, List.cons_append, List.cons_append, List.cons_append, List.cons_append,
            List.cons_append, List.singleton_append, takeString?, unit?_hexDigits]
          dsimp only
          rw [htail]
          rfl

/-- The pieces that a text is written as can be read back. -/
theorem isProper_of_mem_piecesOfText {text : List Char} :
    ∀ piece ∈ piecesOfText text, piece.IsProper := by
  intro piece hpiece
  obtain ⟨c, -, rfl⟩ := List.mem_map.mp hpiece
  unfold StringPiece.ofChar
  split
  · trivial
  · rename_i hshort
    split
    · trivial
    · refine ⟨?_, ?_, by omega⟩
      · rintro rfl
        exact absurd hshort (by decide)
      · rintro rfl
        exact absurd hshort (by decide)

end RecipeScript
