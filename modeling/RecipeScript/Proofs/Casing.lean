import Mathlib.Data.List.Forall2
import RecipeScript.Proofs.Blanks
import RecipeScript.Proofs.CaseTables

/-!
# Lowercasing word by word

Lowercasing looks at the neighbours of a capital sigma, and how far it looks has no bound. But it
never looks across a blank: a blank is not passed over and has no case, so on either side of it the
context is that of the start or the end of a text. Therefore a line can be put into small letters
word by word, and the words of the line in small letters are the words of the line, each in small
letters.

A word of ASCII letters and digits leaves no room at all. `lowercase_eq_iff` lists the characters
that may stand for each of its letters: the letter, its capital, and the Kelvin sign for `k`.
-/

namespace RecipeScript

/-! ## One character -/

/-- What becomes of a character between what comes before it and after it. -/
def smallOf (afterCased : Bool) (c : Char) (after : List Char) : List Char :=
  if c = 'Σ' then [if afterCased && !startsCased after then 'ς' else 'σ'] else lowercaseChar c

/-- Whether the nearest letter has case, once a character has been passed. -/
def casedAfter (afterCased : Bool) (c : Char) : Bool :=
  if isCaseIgnorable c then afterCased else isCased c

theorem lowercaseFrom_cons (b : Bool) (c : Char) (cs : List Char) :
    lowercaseFrom b (c :: cs) = smallOf b c cs ++ lowercaseFrom (casedAfter b c) cs := rfl

theorem smallOf_ne_nil (b : Bool) (c : Char) (after : List Char) : smallOf b c after ≠ [] := by
  unfold smallOf
  split
  · simp
  · exact lowercaseChar_ne_nil c

theorem smallOf_of_isBlank {c : Char} (hc : isBlank c = true) (b : Bool) (after : List Char) :
    smallOf b c after = [c] := by
  unfold smallOf
  rw [if_neg, lowercaseChar_of_isBlank hc]
  rintro rfl
  exact absurd hc (by decide)

theorem casedAfter_of_isBlank {c : Char} (hc : isBlank c = true) (b : Bool) :
    casedAfter b c = false := by
  unfold casedAfter
  rw [if_neg (by simp [isCaseIgnorable_eq_false_of_isBlank hc]), isCased_eq_false_of_isBlank hc]

theorem not_isBlank_of_mem_smallOf {c d : Char} {b : Bool} {after : List Char}
    (hc : isBlank c = false) (hd : d ∈ smallOf b c after) : isBlank d = false := by
  unfold smallOf at hd
  split at hd
  · rw [List.mem_singleton.mp hd]
    split <;> decide
  · exact not_isBlank_of_mem_lowercaseChar hc hd

theorem lowercaseFrom_eq_nil_iff {b : Bool} {cs : List Char} : lowercaseFrom b cs = [] ↔ cs = [] := by
  cases cs with
  | nil => exact ⟨fun _ => rfl, fun _ => rfl⟩
  | cons c cs =>
      rw [lowercaseFrom_cons]
      exact ⟨fun h => absurd (List.append_eq_nil_iff.mp h).1 (smallOf_ne_nil b c cs),
        fun h => absurd h (by simp)⟩

/-- The sign of a comment stays, and nothing else becomes one. -/
theorem head?_lowercaseFrom_eq_hash (b : Bool) (cs : List Char) :
    (lowercaseFrom b cs).head? = some '#' ↔ cs.head? = some '#' := by
  cases cs with
  | nil => exact Iff.rfl
  | cons c cs =>
      rw [lowercaseFrom_cons, List.head?_append_of_ne_nil _ (smallOf_ne_nil b c cs)]
      constructor
      · intro h
        unfold smallOf at h
        split at h
        · split at h <;> exact absurd h (by decide)
        · cases hs : lowercaseChar c with
          | nil => exact absurd hs (lowercaseChar_ne_nil c)
          | cons d rest =>
              rw [hs] at h
              rw [Option.some.inj h] at hs
              rw [eq_hash_of_lowercaseChar hs]
              rfl
      · intro h
        rw [Option.some.inj h]
        rfl

/-! ## Words -/

/-- Looking ahead stops at the end of the word. -/
theorem startsCased_piece {cs piece : List Char} {pieces : List (List Char)}
    (h : splitOn isBlank cs = piece :: pieces) : startsCased piece = startsCased cs := by
  induction cs generalizing piece pieces with
  | nil =>
      rw [splitOn] at h
      rw [← (List.cons.inj h).1]
  | cons c cs ih =>
      by_cases hc : isBlank c = true
      · -- the piece ends here, where the look-ahead stops at a character without case
        rw [splitOn_cons_sep cs hc] at h
        rw [← (List.cons.inj h).1]
        unfold startsCased
        rw [List.dropWhile_cons_of_neg (by simp [isCaseIgnorable_eq_false_of_isBlank hc])]
        exact (isCased_eq_false_of_isBlank hc).symm
      · obtain ⟨word, more, hcs⟩ := exists_splitOn_eq_cons isBlank cs
        rw [splitOn_cons_of_not (by simpa using hc) hcs] at h
        rw [← (List.cons.inj h).1]
        have hrest := ih hcs
        unfold startsCased at hrest ⊢
        by_cases hi : isCaseIgnorable c = true
        · rw [List.dropWhile_cons_of_pos hi, List.dropWhile_cons_of_pos hi]
          exact hrest
        · rw [List.dropWhile_cons_of_neg hi, List.dropWhile_cons_of_neg hi]

theorem smallOf_piece {cs piece : List Char} {pieces : List (List Char)}
    (h : splitOn isBlank cs = piece :: pieces) (b : Bool) (c : Char) :
    smallOf b c piece = smallOf b c cs := by
  unfold smallOf
  rw [startsCased_piece h]

/--
The pieces of a text in small letters are its pieces in small letters. Only the first of them still
knows what came before the text.
-/
theorem splitOn_lowercaseFrom {cs piece : List Char} {pieces : List (List Char)}
    (h : splitOn isBlank cs = piece :: pieces) (b : Bool) :
    splitOn isBlank (lowercaseFrom b cs) =
      lowercaseFrom b piece :: pieces.map (lowercaseFrom false) := by
  induction cs generalizing b piece pieces with
  | nil =>
      rw [splitOn] at h
      obtain ⟨rfl, rfl⟩ := List.cons.inj h
      rfl
  | cons c cs ih =>
      obtain ⟨word, more, hcs⟩ := exists_splitOn_eq_cons isBlank cs
      rw [lowercaseFrom_cons]
      by_cases hc : isBlank c = true
      · -- whatever came before the blank is forgotten after it, so the pieces to come begin afresh
        rw [splitOn_cons_sep cs hc] at h
        obtain ⟨rfl, rfl⟩ := List.cons.inj h
        rw [smallOf_of_isBlank hc, casedAfter_of_isBlank hc, List.singleton_append,
          splitOn_cons_sep _ hc, ih hcs false, hcs]
        rfl
      · have hc' : isBlank c = false := by simpa using hc
        rw [splitOn_cons_of_not hc' hcs] at h
        obtain ⟨rfl, rfl⟩ := List.cons.inj h
        rw [splitOn_append_of_not (fun d hd => not_isBlank_of_mem_smallOf hc' hd)
          (ih hcs (casedAfter b c)), lowercaseFrom_cons, smallOf_piece hcs]

theorem blankSeparated_lowercaseFrom (cs : List Char) :
    blankSeparated (lowercaseFrom false cs) = (blankSeparated cs).map (lowercaseFrom false) := by
  obtain ⟨piece, pieces, h⟩ := exists_splitOn_eq_cons isBlank cs
  have hmap := splitOn_lowercaseFrom h false
  rw [← List.map_cons, ← h] at hmap
  unfold blankSeparated
  rw [hmap, List.filter_map]
  refine congrArg _ (List.filter_congr fun word _ => ?_)
  rw [Function.comp_apply, Bool.not_inj_iff, Bool.eq_iff_iff, List.isEmpty_iff, List.isEmpty_iff]
  exact lowercaseFrom_eq_nil_iff

theorem toList_lowercase (s : String) : (lowercase s).toList = lowercaseFrom false s.toList := by
  unfold lowercase
  rw [String.toList_ofList]

/-- **The words of a line in small letters are its words, each in small letters.** -/
theorem words_lowercase (line : String) : words (lowercase line) = (words line).map lowercase := by
  unfold words
  rw [toList_lowercase, blankSeparated_lowercaseFrom, List.map_map, List.map_map]
  refine List.map_congr_left fun word _ => ?_
  rw [Function.comp_apply, Function.comp_apply, lowercase, String.toList_ofList]

/-! ## Words of ASCII letters and digits -/

/-- A small ASCII letter or an ASCII digit. -/
def IsPlain (d : Char) : Prop := d.isLower = true ∨ d.isDigit = true

instance : DecidablePred IsPlain := fun d =>
  inferInstanceAs (Decidable (d.isLower = true ∨ d.isDigit = true))

/-- Words in small letters and digits only. -/
def IsPlainWord (word : String) : Prop := ∀ d ∈ word.toList, IsPlain d

instance : DecidablePred IsPlainWord := fun word => List.decidableBAll IsPlain word.toList

/--
The characters that may stand for a letter or digit of a word: itself, its ASCII capital, and for
`k` the Kelvin sign, which is the only character outside ASCII with a small letter inside.
-/
def StandsFor (c d : Char) : Prop :=
  c = d ∨ (c.isUpper = true ∧ c.toLower = d) ∨ (d = 'k' ∧ c = '\u212A')

/-- A word stands for another when its characters do, one by one. -/
def WordStandsFor (word name : String) : Prop := List.Forall₂ StandsFor word.toList name.toList

theorem isPlain_iff {d : Char} :
    IsPlain d ↔ (97 ≤ d.toNat ∧ d.toNat ≤ 122) ∨ (48 ≤ d.toNat ∧ d.toNat ≤ 57) := by
  unfold IsPlain Char.isLower Char.isDigit
  simp only [ge_iff_le, Bool.and_eq_true, decide_eq_true_eq, UInt32.le_iff_toNat_le, Char.toNat_val]
  exact Iff.rfl

theorem isUpper_iff {c : Char} : c.isUpper = true ↔ 65 ≤ c.toNat ∧ c.toNat ≤ 90 := by
  unfold Char.isUpper
  simp only [ge_iff_le, decide_eq_true_eq, UInt32.le_iff_toNat_le, Char.toNat_val]
  exact Iff.rfl

theorem standsFor_toLower (c : Char) : StandsFor c c.toLower := by
  by_cases hc : c.isUpper = true
  · exact Or.inr (Or.inl ⟨hc, rfl⟩)
  · rw [isUpper_iff] at hc
    have hlower := toNat_toLower c
    rw [if_neg hc] at hlower
    exact Or.inl (Char.toNat_inj.mp hlower.symm)

/-- What lowercases to a letter or digit stands for it. -/
theorem standsFor_of_lowercaseChar {c d : Char} (hd : IsPlain d) (h : lowercaseChar c = [d]) :
    StandsFor c d := by
  have hcases := lowercaseChar_cases c
  rw [h] at hcases
  generalize hs : [d] = small at hcases
  rw [isPlain_iff] at hd
  cases hcases with
  | ascii _ =>
      rw [(List.cons.inj hs).1]
      exact standsFor_toLower c
  | dotted _ => exact absurd (List.cons.inj hs).2 (by simp)
  | @run r e _ hr hlo hhi he =>
      rw [← (List.cons.inj hs).1] at he
      obtain ⟨hfirst, hlast, htarget⟩ := lowercaseRuns_ascii r hr (by omega)
      refine Or.inr (Or.inr ⟨Char.toNat_inj.mp ?_, Char.toNat_inj.mp ?_⟩)
      · show d.toNat = 0x6B
        omega
      · show c.toNat = 0x212A
        omega
  | same _ => exact Or.inl (List.cons.inj hs).1.symm

theorem lowercaseChar_of_standsFor {c d : Char} (hd : IsPlain d) (h : StandsFor c d) :
    lowercaseChar c = [d] := by
  rw [isPlain_iff] at hd
  rcases h with rfl | ⟨hc, rfl⟩ | ⟨rfl, rfl⟩
  · have hlower := toNat_toLower c
    rw [if_neg (by omega)] at hlower
    unfold lowercaseChar
    rw [if_pos (by omega), Char.toNat_inj.mp hlower]
  · rw [isUpper_iff] at hc
    unfold lowercaseChar
    rw [if_pos (by omega)]
  · decide +kernel

theorem smallOf_eq_singleton_iff {b : Bool} {c d : Char} {after : List Char} (hd : IsPlain d) :
    smallOf b c after = [d] ↔ StandsFor c d := by
  by_cases hc : c = 'Σ'
  · -- neither form of the sigma is plain, and a sigma stands for itself alone
    subst hc
    refine ⟨fun h => ?_, fun h => ?_⟩
    · unfold smallOf at h
      rw [if_pos rfl] at h
      rw [← (List.cons.inj h).1] at hd
      split at hd <;> exact absurd hd (by decide)
    · rcases h with rfl | ⟨hupper, _⟩ | ⟨_, hk⟩
      · exact absurd hd (by decide)
      · exact absurd hupper (by decide)
      · exact absurd hk (by decide)
  · unfold smallOf
    rw [if_neg hc]
    exact ⟨standsFor_of_lowercaseChar hd, lowercaseChar_of_standsFor hd⟩

/-- A character that lowercases to letters and digits only lowercases to one of them. -/
theorem exists_smallOf_eq_singleton {b : Bool} {c : Char} {after : List Char}
    (h : ∀ d ∈ smallOf b c after, IsPlain d) : ∃ d, smallOf b c after = [d] ∧ IsPlain d := by
  unfold smallOf at h ⊢
  split at h
  · rw [if_pos (by assumption)]
    exact ⟨_, rfl, h _ List.mem_cons_self⟩
  · rw [if_neg (by assumption)]
    have hcases := lowercaseChar_cases c
    generalize lowercaseChar c = small at hcases h
    cases hcases with
    | ascii _ => exact ⟨_, rfl, h _ List.mem_cons_self⟩
    | dotted _ =>
        have := h (Char.ofNat 0x307) (by simp)
        exact absurd this (by decide)
    | run _ _ _ _ _ => exact ⟨_, rfl, h _ List.mem_cons_self⟩
    | same _ => exact ⟨_, rfl, h _ List.mem_cons_self⟩

theorem lowercaseFrom_eq_iff {b : Bool} {cs ds : List Char} (hds : ∀ d ∈ ds, IsPlain d) :
    lowercaseFrom b cs = ds ↔ List.Forall₂ StandsFor cs ds := by
  induction cs generalizing b ds with
  | nil =>
      rw [List.forall₂_nil_left_iff]
      exact ⟨fun h => h.symm, fun h => h.symm⟩
  | cons c cs ih =>
      rw [lowercaseFrom_cons]
      constructor
      · intro h
        -- `c` cannot become two characters: the second of the dotted capital is no letter
        have hall : ∀ d ∈ smallOf b c cs, IsPlain d :=
          fun d hd => hds d (h ▸ List.mem_append_left _ hd)
        obtain ⟨d, hd, hplain⟩ := exists_smallOf_eq_singleton hall
        rw [hd, List.singleton_append] at h
        subst h
        exact .cons ((smallOf_eq_singleton_iff hplain).mp hd)
          ((ih fun e he => hds e (List.mem_cons_of_mem d he)).mp rfl)
      · intro h
        cases h with
        | @cons _ d _ ds hc hcs =>
            rw [(smallOf_eq_singleton_iff (hds d List.mem_cons_self)).mpr hc,
              (ih fun e he => hds e (List.mem_cons_of_mem d he)).mpr hcs]
            rfl

/-- **Exactly the words that stand for a plain word lowercase to it.** -/
theorem lowercase_eq_iff {word name : String} (hname : IsPlainWord name) :
    lowercase word = name ↔ WordStandsFor word name := by
  rw [← String.toList_inj, toList_lowercase]
  exact lowercaseFrom_eq_iff hname

end RecipeScript
