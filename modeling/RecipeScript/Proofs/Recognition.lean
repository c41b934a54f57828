import RecipeScript.Command
import RecipeScript.Proofs.Casing

/-!
# The language of commands

Which lines give an instruction, and which instruction they give. An instruction has one spelling,
four words long, and a line gives the instruction exactly if its words stand for that spelling, word
by word and character by character. Nothing else in the whole of Unicode is a command.

The proof goes through two equations. `ofLine_eq` says that reading a line is reading its words in
small letters, once blank lines and comments are out of the way; `ofWords_eq_ok_iff` says that a
list of words is read as an instruction exactly if it is the spelling of that instruction.
-/

namespace RecipeScript

namespace Instruction

/-! ## Reading words -/

theorem ingredientOfWord_eq_ok_iff {word : String} {a : Ingredient} :
    ingredientOfWord word = .ok a ↔ word = Vocabulary.name a := by
  rw [← Vocabulary.ofName?_eq_some_iff]
  unfold ingredientOfWord
  cases (Vocabulary.ofName? word : Option Ingredient) <;> simp

theorem durationOfWord_eq_ok_iff {word : String} {d : Duration} :
    durationOfWord word = .ok d ↔ word = d.digits := by
  rw [← Duration.ofWord?_eq_some_iff]
  unfold durationOfWord
  cases Duration.ofWord? word <;> simp

theorem unitOfWord_eq_ok_iff {word : String} {u : TimeUnit} :
    unitOfWord word = .ok u ↔ word = Vocabulary.name u := by
  rw [← Vocabulary.ofName?_eq_some_iff]
  unfold unitOfWord
  cases (Vocabulary.ofName? word : Option TimeUnit) <;> simp

/-- Two slots that are read one after the other both have to be right. -/
theorem bind_eq_ok_iff {ε α β γ : Type} {x : Except ε α} {y : Except ε β} {f : α → β → γ} {c : γ} :
    (do let a ← x; let b ← y; return f a b) = Except.ok c ↔
      ∃ a b, x = .ok a ∧ y = .ok b ∧ f a b = c := by
  constructor
  · intro h
    cases hx : x with
    | error e => rw [hx] at h; exact absurd h (by intro h; cases h)
    | ok a =>
        cases hy : y with
        | error e => rw [hx, hy] at h; exact absurd h (by intro h; cases h)
        | ok b =>
            rw [hx, hy] at h
            exact ⟨a, b, rfl, rfl, Except.ok.inj h⟩
  · rintro ⟨a, b, rfl, rfl, rfl⟩
    rfl

theorem mixingOfWords_eq_ok_iff {action : Action} {words : List String} {i : Instruction} :
    mixingOfWords action words = .ok i ↔ ∃ head first second,
      words = [head, Vocabulary.name first, mixingKeyword, Vocabulary.name second]
        ∧ i = mixing action first second := by
  constructor
  · intro h
    unfold mixingOfWords at h
    split at h
    · split at h
      · rename_i head first keyword second hkeyword
        obtain ⟨a, b, ha, hb, rfl⟩ := bind_eq_ok_iff.mp h
        rw [ingredientOfWord_eq_ok_iff] at ha hb
        exact ⟨head, a, b, by rw [ha, hkeyword, hb], rfl⟩
      · cases h
    · cases h
  · rintro ⟨head, first, second, rfl, rfl⟩
    unfold mixingOfWords
    exact (if_pos rfl).trans (bind_eq_ok_iff.mpr ⟨first, second,
      ingredientOfWord_eq_ok_iff.mpr rfl, ingredientOfWord_eq_ok_iff.mpr rfl, rfl⟩)

theorem timedOfWords_eq_ok_iff {action : Action} {words : List String} {i : Instruction} :
    timedOfWords action words = .ok i ↔ ∃ head duration unit,
      words = [head, timedKeyword, duration.digits, Vocabulary.name unit]
        ∧ i = timed action duration unit := by
  constructor
  · intro h
    unfold timedOfWords at h
    split at h
    · split at h
      · rename_i head keyword digits name hkeyword
        obtain ⟨d, u, hd, hu, rfl⟩ := bind_eq_ok_iff.mp h
        rw [durationOfWord_eq_ok_iff] at hd
        rw [unitOfWord_eq_ok_iff] at hu
        exact ⟨head, d, u, by rw [hkeyword, hd, hu], rfl⟩
      · cases h
    · cases h
  · rintro ⟨head, duration, unit, rfl, rfl⟩
    unfold timedOfWords
    exact (if_pos rfl).trans (bind_eq_ok_iff.mpr ⟨duration, unit,
      durationOfWord_eq_ok_iff.mpr rfl, unitOfWord_eq_ok_iff.mpr rfl, rfl⟩)

/-! ## Spellings -/

theorem name_ne_mixingKeyword_of_action (a : Action) : Vocabulary.name a ≠ mixingKeyword := by
  cases a <;> decide

theorem name_ne_mixingKeyword_of_unit (u : TimeUnit) : Vocabulary.name u ≠ mixingKeyword := by
  cases u <;> decide

theorem digits_ne_mixingKeyword (d : Duration) : d.digits ≠ mixingKeyword := by
  intro h
  have hdigit := d.isWholeNumber.2 'a' (by rw [h]; decide)
  exact absurd hdigit (by decide)

/-- The words of a timed command do not look like those of a mixing command. -/
theorem mixingKeyword_not_mem_timed (action : Action) (duration : Duration) (unit : TimeUnit) :
    mixingKeyword ∉ (timed action duration unit).spelling := by
  unfold spelling
  simp only [List.mem_cons, List.not_mem_nil, or_false, not_or]
  exact ⟨(name_ne_mixingKeyword_of_action action).symm, by decide,
    (digits_ne_mixingKeyword duration).symm, (name_ne_mixingKeyword_of_unit unit).symm⟩

/-- A list of two words or more whose first is an action goes where its keywords send it. -/
theorem ofWords_of_action {action : Action} {second : String} {more : List String} :
    ofWords (Vocabulary.name action :: second :: more) =
      if mixingKeyword ∈ Vocabulary.name action :: second :: more then
        mixingOfWords action (Vocabulary.name action :: second :: more)
      else if timedKeyword ∈ Vocabulary.name action :: second :: more then
        timedOfWords action (Vocabulary.name action :: second :: more)
      else .error .unrecognizedPattern := by
  rw [ofWords, Vocabulary.ofName?_name]

theorem ofWords_spelling (i : Instruction) : ofWords i.spelling = .ok i := by
  cases i with
  | mixing action first second =>
      rw [spelling, ofWords_of_action, if_pos (by simp)]
      exact mixingOfWords_eq_ok_iff.mpr ⟨_, first, second, rfl, rfl⟩
  | timed action duration unit =>
      have hmixing := mixingKeyword_not_mem_timed action duration unit
      rw [spelling] at hmixing ⊢
      rw [ofWords_of_action, if_neg hmixing, if_pos (by simp)]
      exact timedOfWords_eq_ok_iff.mpr ⟨_, duration, unit, rfl, rfl⟩

/-- **Words give an instruction exactly if they are its spelling.** -/
theorem ofWords_eq_ok_iff {words : List String} {i : Instruction} :
    ofWords words = .ok i ↔ words = i.spelling := by
  constructor
  · intro h
    rcases words with _ | ⟨head, _ | ⟨second, more⟩⟩
    · cases h
    · cases h
    · cases haction : (Vocabulary.ofName? head : Option Action) with
      | none => rw [ofWords, haction] at h; cases h
      | some action =>
          rw [Vocabulary.ofName?_eq_some_iff] at haction
          subst haction
          rw [ofWords_of_action] at h
          -- where the keywords lead, the four words are read one by one
          split at h
          · obtain ⟨_, first, second, hwords, rfl⟩ := mixingOfWords_eq_ok_iff.mp h
            rw [(List.cons.inj hwords).2]
            rfl
          · split at h
            · obtain ⟨_, duration, unit, hwords, rfl⟩ := timedOfWords_eq_ok_iff.mp h
              rw [(List.cons.inj hwords).2]
              rfl
            · cases h
  · rintro rfl
    exact ofWords_spelling i

theorem spelling_inj {i j : Instruction} (h : i.spelling = j.spelling) : i = j := by
  have hi := ofWords_spelling i
  rw [h, ofWords_spelling] at hi
  exact (Except.ok.inj hi).symm

end Instruction

/-! ## Reading lines -/

theorem normalize?_eq (line : String) :
    normalize? line = if isBlankOrComment line then none else some (lowercase (trim line)) := by
  have hhash := head?_lowercaseFrom_eq_hash false (trim line).toList
  unfold normalize?
  rw [isBlankOrComment_eq]
  cases htrim : (trim line).toList with
  | nil => simp [toList_lowercase, htrim, lowercaseFrom]
  | cons c cs =>
      rw [htrim] at hhash
      cases hlower : lowercaseFrom false (c :: cs) with
      | nil => exact absurd (lowercaseFrom_eq_nil_iff.mp hlower) (by simp)
      | cons d ds =>
          rw [hlower] at hhash
          simp only [List.head?_cons, Option.some.injEq] at hhash
          simp [toList_lowercase, htrim, hlower, hhash]

namespace Instruction

/-- **Reading a line is reading its words in small letters**, unless it asks for nothing. -/
theorem ofLine_eq (line : String) : ofLine line =
    if isBlankOrComment line then .ok none else some <$> ofWords ((words line).map lowercase) := by
  unfold ofLine
  rw [normalize?_eq]
  by_cases h : isBlankOrComment line = true
  · rw [if_pos h, if_pos h]
  · rw [if_neg h, if_neg h]
    show some <$> ofWords (words (lowercase (trim line))) = _
    rw [words_lowercase, words_trim]

@[simp] theorem ofLine_trim (line : String) : ofLine (trim line) = ofLine line := by
  rw [ofLine_eq, ofLine_eq, isBlankOrComment_trim, words_trim]

theorem ofLine_eq_ok_none_iff {line : String} :
    ofLine line = .ok none ↔ isBlankOrComment line = true := by
  rw [ofLine_eq]
  constructor
  · intro h
    split at h
    · assumption
    · cases hwords : ofWords ((words line).map lowercase) with
      | error fault => rw [hwords] at h; cases h
      | ok i => rw [hwords] at h; cases h
  · exact fun h => if_pos h

/-! ## The language -/

/-- Words are a way to write an instruction when they stand for its spelling, one by one. -/
def IsWritten (i : Instruction) (words : List String) : Prop :=
  List.Forall₂ WordStandsFor words i.spelling

theorem isPlain_name_action (a : Action) : IsPlainWord (Vocabulary.name a) := by
  cases a <;> decide

theorem isPlain_name_ingredient (a : Ingredient) : IsPlainWord (Vocabulary.name a) := by
  cases a <;> decide

theorem isPlain_name_unit (u : TimeUnit) : IsPlainWord (Vocabulary.name u) := by
  cases u <;> decide

/-- Spellings are plain, so what stands for one is known character by character. -/
theorem isPlain_of_mem_spelling (i : Instruction) :
    ∀ word ∈ i.spelling, IsPlainWord word := by
  intro word hword
  cases i with
  | mixing action first second =>
      simp only [spelling, List.mem_cons, List.not_mem_nil, or_false] at hword
      rcases hword with rfl | rfl | rfl | rfl
      · exact isPlain_name_action action
      · exact isPlain_name_ingredient first
      · decide
      · exact isPlain_name_ingredient second
  | timed action duration unit =>
      simp only [spelling, List.mem_cons, List.not_mem_nil, or_false] at hword
      rcases hword with rfl | rfl | rfl | rfl
      · exact isPlain_name_action action
      · decide
      · exact fun d hd => Or.inr (duration.isWholeNumber.2 d hd)
      · exact isPlain_name_unit unit

theorem map_lowercase_eq_iff {words names : List String}
    (hnames : ∀ name ∈ names, IsPlainWord name) :
    words.map lowercase = names ↔ List.Forall₂ WordStandsFor words names := by
  induction words generalizing names with
  | nil =>
      rw [List.forall₂_nil_left_iff]
      exact ⟨fun h => h.symm, fun h => h.symm⟩
  | cons word words ih =>
      cases names with
      | nil => exact ⟨fun h => absurd h (by simp), fun h => by cases h⟩
      | cons name names =>
          rw [List.map_cons, List.cons.injEq, List.forall₂_cons,
            lowercase_eq_iff (hnames name List.mem_cons_self),
            ih fun other h => hnames other (List.mem_cons_of_mem name h)]

theorem isWritten_iff {i : Instruction} {words : List String} :
    i.IsWritten words ↔ words.map lowercase = i.spelling :=
  (map_lowercase_eq_iff i.isPlain_of_mem_spelling).symm

theorem IsWritten.length_eq {i : Instruction} {words : List String} (h : i.IsWritten words) :
    words.length = 4 := by
  rw [List.Forall₂.length_eq h]
  cases i <;> rfl

/-- No way to write one instruction is a way to write another. -/
theorem IsWritten.unique {i j : Instruction} {words : List String} (hi : i.IsWritten words)
    (hj : j.IsWritten words) : i = j :=
  spelling_inj ((isWritten_iff.mp hi).symm.trans (isWritten_iff.mp hj))

theorem exists_head?_name_action (a : Action) :
    ∃ d, (Vocabulary.name a).toList.head? = some d ∧ d ≠ '#' := by
  cases a <;> exact ⟨_, rfl, by decide⟩

/-- A line that is a way to write an instruction asks for something. -/
theorem IsWritten.not_comment {i : Instruction} {line : String} (h : i.IsWritten (words line)) :
    isBlankOrComment line = false := by
  have hwords := isWritten_iff.mp h
  obtain ⟨rest, hrest⟩ : ∃ rest, i.spelling = Vocabulary.name i.action :: rest := by
    cases i <;> exact ⟨_, rfl⟩
  obtain ⟨d, hd, hhash⟩ := exists_head?_name_action i.action
  -- a comment would begin with its sign also in small letters, and no action does
  rw [isBlankOrComment_eq_head?_word]
  cases hline : words line with
  | nil => rw [hline, hrest] at hwords; exact absurd hwords (by simp)
  | cons word more =>
      rw [hline, hrest, List.map_cons] at hwords
      rw [← (List.cons.inj hwords).1, toList_lowercase] at hd
      show word.toList.head?.all (· == '#') = false
      cases hword : word.toList with
      | nil => rw [hword] at hd; exact absurd hd (by simp [lowercaseFrom])
      | cons c cs =>
          rw [hword] at hd
          show (c == '#') = false
          rw [beq_eq_false_iff_ne]
          rintro rfl
          rw [(head?_lowercaseFrom_eq_hash _ _).mpr rfl] at hd
          exact hhash (Option.some.inj hd).symm

theorem map_eq_ok_some_iff {ε α : Type} {x : Except ε α} {a : α} :
    (some <$> x) = Except.ok (some a) ↔ x = .ok a := by
  cases x with
  | error e => exact ⟨(by intro h; cases h), (by intro h; cases h)⟩
  | ok b => exact ⟨(by intro h; cases h; rfl), (by intro h; cases h; rfl)⟩

theorem ofLine_eq_ok_some_iff {line : String} {i : Instruction} :
    ofLine line = .ok (some i) ↔ i.IsWritten (words line) := by
  rw [ofLine_eq]
  constructor
  · intro h
    split at h
    · cases h
    · rw [map_eq_ok_some_iff, ofWords_eq_ok_iff] at h
      exact isWritten_iff.mpr h
  · intro h
    rw [if_neg (by simp [h.not_comment]), map_eq_ok_some_iff, ofWords_eq_ok_iff]
    exact isWritten_iff.mp h

-- capitals, a Kelvin sign and blanks of several kinds
example : ofLine " BA\u212AE\u3000miL\u212A  And\u00A0EGGS\t" = .ok (some (mixing .bake .milk .eggs)) := by
  decide +kernel

/--
**The language of commands.** A line gives an instruction exactly if it has four words and they are
a way to write the instruction, and no line is a way to write two.
-/
theorem ofLine_language (line : String) :
    (∀ i : Instruction, ofLine line = .ok (some i) ↔ (words line).length = 4 ∧ i.IsWritten (words line))
      ∧ ∀ i j : Instruction, i.IsWritten (words line) → j.IsWritten (words line) → i = j := by
  refine ⟨fun i => ?_, fun i j hi hj => hi.unique hj⟩
  rw [ofLine_eq_ok_some_iff]
  exact ⟨fun h => ⟨h.length_eq, h⟩, fun h => h.2⟩

end Instruction

end RecipeScript
