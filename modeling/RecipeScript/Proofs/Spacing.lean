import RecipeScript.Proofs.Sentences

/-!
# Only the words of a line count

A line is blanks and words in turn. How many blanks there are, and of which kind, has no part in what the
line says, and of a word only its small letters have one. Both follow from one fact: putting a line into
small letters and cutting it into words can be done in either order (`words_lowercase`), although a
capital sigma is lowercased by looking at its neighbours.

`Spaced` is the other side of `words`: it builds the lines with given words instead of cutting a line.
The two agree (`words_eq_iff_spaced`), so whatever is said about words holds for every way to space them.
-/

namespace RecipeScript

/-- A text in which the given words stand in their order. Any blanks may stand in front of the first word
and after the last one, and at least one has to stand between two words. -/
inductive Spaced : List Char → List String → Prop
  | blanks {gap : List Char} : (∀ c ∈ gap, isBlank c = true) → Spaced gap []
  | word {gap rest : List Char} {word : String} {ws : List String} : (∀ c ∈ gap, isBlank c = true) →
      IsSolid word → (∀ c, rest.head? = some c → isBlank c = true) → Spaced rest ws →
      Spaced (gap ++ (word.toList ++ rest)) (word :: ws)

/-! ## Cutting what was spaced -/

theorem blankSeparated_append_of_blanks {gap : List Char} (h : ∀ c ∈ gap, isBlank c = true) (cs : List Char) :
    blankSeparated (gap ++ cs) = blankSeparated cs := by
  rw [← blankSeparated_dropWhile (gap ++ cs), List.dropWhile_append_of_pos h, blankSeparated_dropWhile]

/-- A word in front of a blank, or at the end, is cut off as it is. -/
theorem blankSeparated_append_of_isSolid {word : String} {rest : List Char} (hword : IsSolid word)
    (hrest : ∀ c, rest.head? = some c → isBlank c = true) :
    blankSeparated (word.toList ++ rest) = word.toList :: blankSeparated rest := by
  have hkept : [word.toList].filter (fun piece => !piece.isEmpty) = [word.toList] := by
    obtain ⟨c, cs, hcs⟩ := List.exists_cons_of_ne_nil hword.1
    rw [hcs]
    rfl
  cases rest with
  | nil =>
      unfold blankSeparated
      rw [List.append_nil, splitOn_eq_singleton hword.2, hkept]
      rfl
  | cons c rest =>
      have hc : isBlank c = true := hrest c rfl
      rw [blankSeparated_cons_blank rest hc]
      unfold blankSeparated
      rw [splitOn_append_sep word.toList rest hc, splitOn_eq_singleton hword.2, List.filter_append, hkept]
      rfl

theorem Spaced.blankSeparated_eq {cs : List Char} {ws : List String} (h : Spaced cs ws) :
    blankSeparated cs = ws.map String.toList := by
  induction h with
  | @blanks gap hgap =>
      have hnone := blankSeparated_append_of_blanks hgap []
      rw [List.append_nil] at hnone
      exact hnone
  | word hgap hword hrest _ ih =>
      rw [blankSeparated_append_of_blanks hgap, blankSeparated_append_of_isSolid hword hrest, ih]
      rfl

/-! ## Every text is spaced -/

theorem Spaced.cons_blank {c : Char} {cs : List Char} {ws : List String} (hc : isBlank c = true)
    (h : Spaced cs ws) : Spaced (c :: cs) ws := by
  cases h with
  | blanks hgap => exact .blanks (List.forall_mem_cons.mpr ⟨hc, hgap⟩)
  | @word gap rest word ws hgap hword hrest hws =>
      have hgap' : ∀ d ∈ c :: gap, isBlank d = true := List.forall_mem_cons.mpr ⟨hc, hgap⟩
      exact .word hgap' hword hrest hws

theorem isSolid_cons {c : Char} {cs : List Char} (hc : isBlank c = false) (hcs : ∀ d ∈ cs, isBlank d = false) :
    IsSolid (String.ofList (c :: cs)) := by
  unfold IsSolid
  rw [String.toList_ofList]
  exact ⟨List.cons_ne_nil c cs, List.forall_mem_cons.mpr ⟨hc, hcs⟩⟩

/-- A character that is no blank becomes a word of its own in front of a blank, and otherwise belongs to the
word that follows it. -/
theorem Spaced.exists_cons {c : Char} {cs : List Char} {ws : List String} (hc : isBlank c = false)
    (h : Spaced cs ws) : ∃ ws, Spaced (c :: cs) ws := by
  by_cases hcs : ∀ d, cs.head? = some d → isBlank d = true
  · have hword : IsSolid (String.ofList [c]) := isSolid_cons hc fun d hd => absurd hd List.not_mem_nil
    have hgap : ∀ d ∈ ([] : List Char), isBlank d = true := fun d hd => absurd hd List.not_mem_nil
    have hspaced := Spaced.word hgap hword hcs h
    rw [String.toList_ofList] at hspaced
    exact ⟨_, hspaced⟩
  · -- then the text goes on with a word at once
    cases h with
    | blanks hgap => exact absurd (fun d hd => hgap d (List.mem_of_head? hd)) hcs
    | @word gap rest word ws hgap hword hrest hws =>
        cases gap with
        | cons d gap =>
            refine absurd (fun e he => ?_) hcs
            rw [← Option.some.inj he]
            exact hgap d List.mem_cons_self
        | nil =>
            have hlonger := Spaced.word hgap (isSolid_cons hc hword.2) hrest hws
            rw [String.toList_ofList] at hlonger
            exact ⟨_, hlonger⟩

theorem exists_spaced (cs : List Char) : ∃ ws, Spaced cs ws := by
  induction cs with
  | nil => exact ⟨[], .blanks fun c hc => absurd hc List.not_mem_nil⟩
  | cons c cs ih =>
      obtain ⟨ws, hws⟩ := ih
      cases hc : isBlank c with
      | true => exact ⟨ws, hws.cons_blank hc⟩
      | false => exact hws.exists_cons hc

/-- **The words of a line are those it is spaced from.** -/
theorem words_eq_iff_spaced {line : String} {ws : List String} : words line = ws ↔ Spaced line.toList ws := by
  have hspaced : ∀ {ws : List String}, Spaced line.toList ws → words line = ws := by
    intro ws h
    have hback : ∀ word ∈ ws, (String.ofList ∘ String.toList) word = id word := fun word _ => String.ofList_toList
    unfold words
    rw [h.blankSeparated_eq, List.map_map, List.map_congr_left hback, List.map_id]
  constructor
  · rintro rfl
    obtain ⟨ws, hws⟩ := exists_spaced line.toList
    rw [hspaced hws]
    exact hws
  · exact hspaced

theorem Spaced.isSolid {cs : List Char} {ws : List String} (h : Spaced cs ws) : ∀ word ∈ ws, IsSolid word := by
  induction h with
  | blanks _ => exact fun word hword => absurd hword List.not_mem_nil
  | word _ hword _ _ ih => exact List.forall_mem_cons.mpr ⟨hword, ih⟩

theorem isSolid_of_mem_words {line word : String} (h : word ∈ words line) : IsSolid word :=
  (words_eq_iff_spaced.mp rfl).isSolid word h

/-! ## What a line says -/

/-- Whether a line is blank or a comment shows in its words, also once they are in small letters. -/
theorem isBlankOrComment_eq_head?_lowercase (line : String) : isBlankOrComment line =
    (((words line).map lowercase).head?.bind fun word => word.toList.head?).all (· == '#') := by
  rw [isBlankOrComment_eq_head?_word, Bool.eq_iff_iff]
  cases words line with
  | nil => rfl
  | cons word ws =>
      have hhash := head?_lowercaseFrom_eq_hash false word.toList
      have hempty : lowercaseFrom false word.toList = [] ↔ word.toList = [] := lowercaseFrom_eq_nil_iff
      simp only [List.map_cons, List.head?_cons, Option.bind_some, toList_lowercase, Option.all_eq_true, beq_iff_eq]
      -- the word is empty, or begins with the sign of a comment, if it is so in small letters
      cases hword : word.toList with
      | nil => rfl
      | cons c cs =>
          rw [hword] at hhash hempty
          cases hlower : lowercaseFrom false (c :: cs) with
          | nil => exact absurd (hempty.mp hlower) (List.cons_ne_nil c cs)
          | cons d ds =>
              rw [hlower] at hhash
              simp only [List.head?_cons, Option.some.injEq, forall_eq'] at hhash ⊢
              exact hhash.symm

namespace Instruction

theorem ofLine_congr {line other : String} (h : (words line).map lowercase = (words other).map lowercase) :
    ofLine line = ofLine other := by
  rw [ofLine_eq, ofLine_eq, isBlankOrComment_eq_head?_lowercase, isBlankOrComment_eq_head?_lowercase, h]

/--
**A line says what its words say in small letters.** The normal form of a line that asks for something has the words
of the line, each put into small letters on its own. Therefore two lines are read alike, as the same instruction
or with the same fault about the same word, if their words are the same in small letters one by one, however
either line is spaced; and a line is spaced from its words and from no others.
-/
theorem ofLine_by_words (line : String) :
    (isBlankOrComment line = false → ∃ normal, normalize? line = some normal ∧
        words normal = (words line).map lowercase)
      ∧ (∀ ws, words line = ws ↔ Spaced line.toList ws)
      ∧ ∀ other ws others, Spaced line.toList ws → Spaced other.toList others →
        List.Forall₂ (fun word word' => lowercase word = lowercase word') ws others →
        ofLine line = ofLine other := by
  refine ⟨fun h => ?_, fun ws => words_eq_iff_spaced, fun other ws others hws hothers h => ?_⟩
  · refine ⟨lowercase (trim line), ?_, ?_⟩
    · rw [normalize?_eq, h]
      rfl
    · rw [words_lowercase, words_trim]
  · have hsame : ws.map lowercase = others.map lowercase :=
      List.forall₂_eq_eq_eq ▸ List.forall₂_map_left_iff.mpr (List.forall₂_map_right_iff.mpr h)
    rw [← words_eq_iff_spaced.mpr hws, ← words_eq_iff_spaced.mpr hothers] at hsame
    exact ofLine_congr hsame

-- a final sigma in front of a blank and one in front of a mark that is passed over, a dotted capital
example : words (lowercase "\u3000ΑΣ\t ΑΣ\u0301Α\u00A0\u0130 ") = ["ας", "ασ\u0301α", "i\u0307"] := by
  decide +kernel

end Instruction

end RecipeScript
