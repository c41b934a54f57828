import RecipeScript.Proofs.Recognition

/-!
# Printed sentences are commands

A recipe prints an instruction as a sentence with a capital in front, and the language reads lines
whatever their case. So a sentence can be read back, and gives the instruction that it was printed
for (`ofLine_sentence`).

A sentence is its words with one blank between any two. A word is solid: it is not empty and holds no
blank, so cutting at blanks finds the words again, and no sentence goes on over a line feed.
-/

namespace RecipeScript

/-! ## Pieces with separators between them -/

section Pieces

variable {α : Type} {p : α → Bool} {sep : α} {pieces : List (List α)}

/-- Cutting undoes putting together, if the separator is one and nothing in the pieces is. -/
theorem splitOn_intercalate (hsep : p sep = true) (hne : pieces ≠ [])
    (h : ∀ piece ∈ pieces, ∀ x ∈ piece, p x = false) :
    splitOn p ([sep].intercalate pieces) = pieces := by
  induction pieces with
  | nil => exact absurd rfl hne
  | cons piece pieces ih =>
      have hpiece := h piece List.mem_cons_self
      cases pieces with
      | nil => rw [List.intercalate_singleton, splitOn_eq_singleton hpiece]
      | cons next pieces =>
          have htail := ih (by simp) fun other hother => h other (List.mem_cons_of_mem piece hother)
          rw [List.intercalate_cons_cons, List.append_assoc, List.singleton_append,
            splitOn_append_sep _ _ hsep, splitOn_eq_singleton hpiece, htail, List.singleton_append]

theorem mem_intercalate {x : α} {between : List α} (h : x ∈ between.intercalate pieces) :
    x ∈ between ∨ ∃ piece ∈ pieces, x ∈ piece := by
  induction pieces with
  | nil => exact absurd h (by simp [List.intercalate])
  | cons piece pieces ih =>
      cases pieces with
      | nil =>
          rw [List.intercalate_singleton] at h
          exact Or.inr ⟨piece, List.mem_cons_self, h⟩
      | cons next pieces =>
          rw [List.intercalate_cons_cons, List.append_assoc, List.mem_append, List.mem_append] at h
          rcases h with h | h | h
          · exact Or.inr ⟨piece, List.mem_cons_self, h⟩
          · exact Or.inl h
          · rcases ih h with hbetween | ⟨other, hother, hx⟩
            · exact Or.inl hbetween
            · exact Or.inr ⟨other, List.mem_cons_of_mem piece hother, hx⟩

end Pieces

/-! ## Solid words -/

/-- A word that is not empty and holds no blank. -/
def IsSolid (word : String) : Prop :=
  word.toList ≠ [] ∧ ∀ c ∈ word.toList, isBlank c = false

instance (word : String) : Decidable (IsSolid word) :=
  decidable_of_bool (!word.toList.isEmpty && word.toList.all fun c => !isBlank c) (by simp [IsSolid])

theorem isBlank_of_isPlain {c : Char} (h : IsPlain c) : isBlank c = false := by
  rw [isPlain_iff] at h
  rw [← Bool.not_eq_true, isBlank_iff]
  omega

theorem isSolid_of_isPlainWord {word : String} (hne : word.toList ≠ []) (h : IsPlainWord word) :
    IsSolid word :=
  ⟨hne, fun c hc => isBlank_of_isPlain (h c hc)⟩

theorem blankSeparated_intercalate {pieces : List (List Char)}
    (h : ∀ piece ∈ pieces, piece ≠ [] ∧ ∀ c ∈ piece, isBlank c = false) :
    blankSeparated ([' '].intercalate pieces) = pieces := by
  unfold blankSeparated
  cases pieces with
  | nil => rfl
  | cons piece pieces =>
      rw [splitOn_intercalate (by decide) (by simp) fun other hother => (h other hother).2]
      refine List.filter_eq_self.mpr fun other hother => ?_
      have hne := (h other hother).1
      cases other with
      | nil => exact absurd rfl hne
      | cons c other => rfl

/-- **The words of a line of solid words are those words.** -/
theorem words_intercalate {ws : List String} (h : ∀ word ∈ ws, IsSolid word) :
    words (" ".intercalate ws) = ws := by
  have hpieces : ∀ piece ∈ ws.map String.toList, piece ≠ [] ∧ ∀ c ∈ piece, isBlank c = false := by
    intro piece hpiece
    obtain ⟨word, hword, rfl⟩ := List.mem_map.mp hpiece
    exact h word hword
  have hback : ∀ word ∈ ws, (String.ofList ∘ String.toList) word = id word :=
    fun word _ => String.ofList_toList
  unfold words
  rw [String.toList_intercalate, show " ".toList = [' '] from rfl, blankSeparated_intercalate hpieces,
    List.map_map, List.map_congr_left hback, List.map_id]

theorem lowercase_of_isPlainWord {word : String} (h : IsPlainWord word) : lowercase word = word :=
  (lowercase_eq_iff h).mpr (List.forall₂_same.mpr fun _ _ => Or.inl rfl)

/-! ## Sentences -/

namespace Instruction

/-- The words of the sentence that is printed for an instruction. -/
def printedWords : Instruction → List String
  | mixing action first second =>
    [action.capitalized, Vocabulary.name first, mixingKeyword, Vocabulary.name second]
  | timed action duration unit =>
    [action.capitalized, timedKeyword, duration.digits, Vocabulary.name unit]

theorem sentence_eq (i : Instruction) : i.sentence = " ".intercalate i.printedWords := by
  rw [← String.toList_inj, String.toList_intercalate]
  cases i with
  | mixing action first second =>
      simp [sentence, printedWords, mixingKeyword, List.intercalate_cons_cons]
  | timed action duration unit =>
      simp [sentence, printedWords, timedKeyword, List.intercalate_cons_cons]

theorem isPlainWord_digits (d : Duration) : IsPlainWord d.digits :=
  fun c hc => Or.inr (d.isWholeNumber.2 c hc)

theorem isSolid_capitalized (a : Action) : IsSolid a.capitalized := by
  cases a <;> decide +kernel

theorem isSolid_name_ingredient (a : Ingredient) : IsSolid (Vocabulary.name a) := by
  cases a <;> decide +kernel

theorem isSolid_name_unit (u : TimeUnit) : IsSolid (Vocabulary.name u) := by
  cases u <;> decide +kernel

theorem isSolid_of_mem_printedWords (i : Instruction) : ∀ word ∈ i.printedWords, IsSolid word := by
  cases i with
  | mixing action first second =>
      simp only [printedWords, List.forall_mem_cons, List.not_mem_nil, false_implies, implies_true,
        and_true]
      exact ⟨isSolid_capitalized action, isSolid_name_ingredient first, by decide +kernel,
        isSolid_name_ingredient second⟩
  | timed action duration unit =>
      simp only [printedWords, List.forall_mem_cons, List.not_mem_nil, false_implies, implies_true,
        and_true]
      exact ⟨isSolid_capitalized action, by decide +kernel,
        isSolid_of_isPlainWord duration.isWholeNumber.1 (isPlainWord_digits duration),
        isSolid_name_unit unit⟩

theorem lowercase_capitalized (a : Action) : lowercase a.capitalized = Vocabulary.name a := by
  cases a <;> decide +kernel

theorem map_lowercase_printedWords (i : Instruction) : i.printedWords.map lowercase = i.spelling := by
  cases i with
  | mixing action first second =>
      rw [printedWords, List.map_cons, List.map_cons, List.map_cons, List.map_cons, List.map_nil,
        lowercase_capitalized, lowercase_of_isPlainWord (isPlain_name_ingredient first),
        lowercase_of_isPlainWord (by decide), lowercase_of_isPlainWord (isPlain_name_ingredient second),
        spelling]
  | timed action duration unit =>
      rw [printedWords, List.map_cons, List.map_cons, List.map_cons, List.map_cons, List.map_nil,
        lowercase_capitalized, lowercase_of_isPlainWord (by decide),
        lowercase_of_isPlainWord (isPlainWord_digits duration),
        lowercase_of_isPlainWord (isPlain_name_unit unit), spelling]

/-- **A printed sentence is a command that gives the instruction back.** -/
theorem ofLine_sentence (i : Instruction) : ofLine i.sentence = .ok (some i) := by
  rw [ofLine_eq_ok_some_iff, isWritten_iff, sentence_eq, words_intercalate i.isSolid_of_mem_printedWords,
    map_lowercase_printedWords]

/-- A sentence is one line. -/
theorem newline_not_mem_sentence (i : Instruction) : '\n' ∉ i.sentence.toList := by
  intro h
  rw [sentence_eq, String.toList_intercalate] at h
  rcases mem_intercalate h with h | ⟨piece, hpiece, h⟩
  · exact absurd h (by decide)
  · obtain ⟨word, hword, rfl⟩ := List.mem_map.mp hpiece
    exact absurd ((i.isSolid_of_mem_printedWords word hword).2 '\n' h) (by decide)

end Instruction

end RecipeScript
