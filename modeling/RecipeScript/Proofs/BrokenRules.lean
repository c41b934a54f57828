import RecipeScript.Proofs.Alphabetical
import RecipeScript.Proofs.Spacing

/-!
# The rule that is broken

Words that are no command break a rule of the language, and the first rule that they break is the
fault that is reported. `Breaks` says which fault belongs to which words, rule by rule and without
reading them: how many there are, where the keywords stand, and which of them are names. The rules
come in order, and a rule is only asked about once those before it are kept.

That the two agree (`ofWords_eq_error_iff`) is shown from one side only. Words that break a rule are
refused with its fault, one constructor after the other (`Breaks.ofWords_eq`); and words that break
none are the spelling of an instruction (`exists_spelling_or_breaks`), which says nothing about reading
either. So reading cannot refuse anything else, or with anything else.
-/

namespace RecipeScript

open Vocabulary (IsNameOf IsWholeVocabulary)

namespace Instruction

/-- Two words or more, the first of which is an action. -/
def BeginsWithAction (words : List String) : Prop :=
  ∃ (action : Action) (second : String) (more : List String),
    words = Vocabulary.name action :: second :: more

/-- Words that are no command, with the fault of the first rule that they break. -/
inductive Breaks : List String → CommandFault → Prop where
  | tooFew {words : List String} : words.length < 2 → Breaks words .malformed
  | noAction {head second : String} {more : List String} : ¬ IsNameOf Action head →
      Breaks (head :: second :: more) (.unknownAction head)
  | noKeyword {words : List String} : BeginsWithAction words → mixingKeyword ∉ words →
      timedKeyword ∉ words → Breaks words .unrecognizedPattern
  | mixingCount {words : List String} : BeginsWithAction words → mixingKeyword ∈ words →
      words.length ≠ 4 → Breaks words (.malformedMixing (.wordCount words.length))
  | mixingPlace {action : Action} {first keyword second : String} :
      mixingKeyword ∈ [Vocabulary.name action, first, keyword, second] → keyword ≠ mixingKeyword →
      Breaks [Vocabulary.name action, first, keyword, second] (.malformedMixing .misplacedKeyword)
  | firstIngredient {action : Action} {first second : String} : ¬ IsNameOf Ingredient first →
      Breaks [Vocabulary.name action, first, mixingKeyword, second] (.unknownIngredient first)
  | secondIngredient {action : Action} {first : Ingredient} {second : String} :
      ¬ IsNameOf Ingredient second →
      Breaks [Vocabulary.name action, Vocabulary.name first, mixingKeyword, second]
        (.unknownIngredient second)
  | timedCount {words : List String} : BeginsWithAction words → mixingKeyword ∉ words →
      timedKeyword ∈ words → words.length ≠ 4 →
      Breaks words (.malformedTimed (.wordCount words.length))
  | timedPlace {action : Action} {keyword duration unit : String} :
      mixingKeyword ∉ [Vocabulary.name action, keyword, duration, unit] →
      timedKeyword ∈ [Vocabulary.name action, keyword, duration, unit] → keyword ≠ timedKeyword →
      Breaks [Vocabulary.name action, keyword, duration, unit] (.malformedTimed .misplacedKeyword)
  | duration {action : Action} {duration unit : String} :
      mixingKeyword ∉ [Vocabulary.name action, timedKeyword, duration, unit] →
      ¬ IsWholeNumber duration →
      Breaks [Vocabulary.name action, timedKeyword, duration, unit] (.nonNumericDuration duration)
  | unit {action : Action} {duration : Duration} {unit : String} :
      mixingKeyword ∉ [Vocabulary.name action, timedKeyword, duration.digits, unit] →
      ¬ IsNameOf TimeUnit unit →
      Breaks [Vocabulary.name action, timedKeyword, duration.digits, unit] (.unknownUnit unit)

/-! ## Refused words -/

section Slots

variable {word : String}

theorem ingredientOfWord_of_not (h : ¬ IsNameOf Ingredient word) :
    ingredientOfWord word = .error (.unknownIngredient word) := by
  unfold ingredientOfWord
  rw [Vocabulary.ofName?_eq_none_iff.mpr h]

theorem durationOfWord_of_not (h : ¬ IsWholeNumber word) :
    durationOfWord word = .error (.nonNumericDuration word) := by
  unfold durationOfWord Duration.ofWord?
  rw [dif_neg h]

theorem unitOfWord_of_not (h : ¬ IsNameOf TimeUnit word) :
    unitOfWord word = .error (.unknownUnit word) := by
  unfold unitOfWord
  rw [Vocabulary.ofName?_eq_none_iff.mpr h]

end Slots

section Patterns

variable {action : Action} {words : List String} {head first second keyword duration unit : String}

theorem mixingOfWords_of_length_ne (h : words.length ≠ 4) :
    mixingOfWords action words = .error (.malformedMixing (.wordCount words.length)) := by
  unfold mixingOfWords
  split
  · exact absurd rfl h
  · rfl

theorem mixingOfWords_of_ne (h : keyword ≠ mixingKeyword) :
    mixingOfWords action [head, first, keyword, second] = .error (.malformedMixing .misplacedKeyword) :=
  if_neg h

theorem mixingOfWords_of_first (h : ¬ IsNameOf Ingredient first) :
    mixingOfWords action [head, first, mixingKeyword, second] = .error (.unknownIngredient first) := by
  rw [mixingOfWords, if_pos rfl, ingredientOfWord_of_not h]
  rfl

theorem mixingOfWords_of_second (a : Ingredient) (h : ¬ IsNameOf Ingredient second) :
    mixingOfWords action [head, Vocabulary.name a, mixingKeyword, second] =
      .error (.unknownIngredient second) := by
  rw [mixingOfWords, if_pos rfl, ingredientOfWord_eq_ok_iff.mpr rfl, ingredientOfWord_of_not h]
  rfl

theorem timedOfWords_of_length_ne (h : words.length ≠ 4) :
    timedOfWords action words = .error (.malformedTimed (.wordCount words.length)) := by
  unfold timedOfWords
  split
  · exact absurd rfl h
  · rfl

theorem timedOfWords_of_ne (h : keyword ≠ timedKeyword) :
    timedOfWords action [head, keyword, duration, unit] = .error (.malformedTimed .misplacedKeyword) :=
  if_neg h

theorem timedOfWords_of_duration (h : ¬ IsWholeNumber duration) :
    timedOfWords action [head, timedKeyword, duration, unit] = .error (.nonNumericDuration duration) := by
  rw [timedOfWords, if_pos rfl, durationOfWord_of_not h]
  rfl

theorem timedOfWords_of_unit (d : Duration) (h : ¬ IsNameOf TimeUnit unit) :
    timedOfWords action [head, timedKeyword, d.digits, unit] = .error (.unknownUnit unit) := by
  rw [timedOfWords, if_pos rfl, durationOfWord_eq_ok_iff.mpr rfl, unitOfWord_of_not h]
  rfl

theorem ofWords_of_length_lt (h : words.length < 2) : ofWords words = .error .malformed := by
  unfold ofWords
  split
  · exact absurd h (by simp)
  · rfl

theorem ofWords_of_mixing (hbegins : BeginsWithAction words) (h : mixingKeyword ∈ words) :
    ∃ action, ofWords words = mixingOfWords action words := by
  obtain ⟨action, second, more, rfl⟩ := hbegins
  exact ⟨action, by rw [ofWords_of_action, if_pos h]⟩

theorem ofWords_of_timed (hbegins : BeginsWithAction words) (hmixing : mixingKeyword ∉ words)
    (h : timedKeyword ∈ words) : ∃ action, ofWords words = timedOfWords action words := by
  obtain ⟨action, second, more, rfl⟩ := hbegins
  exact ⟨action, by rw [ofWords_of_action, if_neg hmixing, if_pos h]⟩

end Patterns

theorem beginsWithAction_cons (action : Action) (second : String) (more : List String) :
    BeginsWithAction (Vocabulary.name action :: second :: more) :=
  ⟨action, second, more, rfl⟩

/-- **Words that break a rule are refused with its fault.** -/
theorem Breaks.ofWords_eq {words : List String} {fault : CommandFault} (h : Breaks words fault) :
    ofWords words = .error fault := by
  cases h with
  | tooFew hlength => exact ofWords_of_length_lt hlength
  | noAction hhead => rw [ofWords, Vocabulary.ofName?_eq_none_iff.mpr hhead]
  | noKeyword hbegins hmixing htimed =>
      obtain ⟨action, second, more, rfl⟩ := hbegins
      rw [ofWords_of_action, if_neg hmixing, if_neg htimed]
  | mixingCount hbegins hmixing hlength =>
      obtain ⟨action, hwords⟩ := ofWords_of_mixing hbegins hmixing
      rw [hwords, mixingOfWords_of_length_ne hlength]
  | mixingPlace hmixing hkeyword =>
      rw [ofWords_of_action, if_pos hmixing, mixingOfWords_of_ne hkeyword]
  | firstIngredient hfirst =>
      rw [ofWords_of_action, if_pos (by simp), mixingOfWords_of_first hfirst]
  | @secondIngredient _ first _ hsecond =>
      rw [ofWords_of_action, if_pos (by simp), mixingOfWords_of_second first hsecond]
  | timedCount hbegins hmixing htimed hlength =>
      obtain ⟨action, hwords⟩ := ofWords_of_timed hbegins hmixing htimed
      rw [hwords, timedOfWords_of_length_ne hlength]
  | timedPlace hmixing htimed hkeyword =>
      rw [ofWords_of_action, if_neg hmixing, if_pos htimed, timedOfWords_of_ne hkeyword]
  | duration hmixing hduration =>
      rw [ofWords_of_action, if_neg hmixing, if_pos (by simp), timedOfWords_of_duration hduration]
  | @unit _ duration _ hmixing hunit =>
      rw [ofWords_of_action, if_neg hmixing, if_pos (by simp), timedOfWords_of_unit duration hunit]

/-! ## Words that break no rule -/

theorem exists_of_length_eq_four {words : List String} (h : words.length = 4) :
    ∃ head first second third, words = [head, first, second, third] := by
  obtain ⟨head, words, rfl⟩ := List.exists_of_length_succ words h
  obtain ⟨first, second, third, rfl⟩ := List.length_eq_three.mp (Nat.succ.inj h)
  exact ⟨head, first, second, third, rfl⟩

section Complete

variable {action : Action} {second : String} {more : List String}

theorem exists_spelling_or_breaks_of_mixing
    (h : mixingKeyword ∈ Vocabulary.name action :: second :: more) :
    (∃ i : Instruction, Vocabulary.name action :: second :: more = i.spelling)
      ∨ ∃ fault, Breaks (Vocabulary.name action :: second :: more) fault := by
  by_cases hlength : (Vocabulary.name action :: second :: more).length = 4
  · obtain ⟨head, first, keyword, second', hwords⟩ := exists_of_length_eq_four hlength
    rw [hwords] at h ⊢
    obtain rfl := (List.cons.inj hwords).1
    by_cases hkeyword : keyword = mixingKeyword
    · subst hkeyword
      by_cases hfirst : IsNameOf Ingredient first
      · obtain ⟨a, rfl⟩ := hfirst
        by_cases hsecond : IsNameOf Ingredient second'
        · obtain ⟨b, rfl⟩ := hsecond
          exact Or.inl ⟨.mixing action a b, rfl⟩
        · exact Or.inr ⟨_, .secondIngredient hsecond⟩
      · exact Or.inr ⟨_, .firstIngredient hfirst⟩
    · exact Or.inr ⟨_, .mixingPlace h hkeyword⟩
  · exact Or.inr ⟨_, .mixingCount (beginsWithAction_cons action second more) h hlength⟩

theorem exists_spelling_or_breaks_of_timed
    (hmixing : mixingKeyword ∉ Vocabulary.name action :: second :: more)
    (h : timedKeyword ∈ Vocabulary.name action :: second :: more) :
    (∃ i : Instruction, Vocabulary.name action :: second :: more = i.spelling)
      ∨ ∃ fault, Breaks (Vocabulary.name action :: second :: more) fault := by
  by_cases hlength : (Vocabulary.name action :: second :: more).length = 4
  · obtain ⟨head, keyword, duration, unit, hwords⟩ := exists_of_length_eq_four hlength
    rw [hwords] at h hmixing ⊢
    obtain rfl := (List.cons.inj hwords).1
    by_cases hkeyword : keyword = timedKeyword
    · subst hkeyword
      by_cases hduration : IsWholeNumber duration
      · by_cases hunit : IsNameOf TimeUnit unit
        · obtain ⟨u, rfl⟩ := hunit
          exact Or.inl ⟨.timed action ⟨duration, hduration⟩ u, rfl⟩
        · exact Or.inr ⟨_, @Breaks.unit action ⟨duration, hduration⟩ unit hmixing hunit⟩
      · exact Or.inr ⟨_, .duration hmixing hduration⟩
    · exact Or.inr ⟨_, .timedPlace hmixing h hkeyword⟩
  · exact Or.inr ⟨_, .timedCount (beginsWithAction_cons action second more) hmixing h hlength⟩

end Complete

/-- **Words that break no rule spell an instruction.** -/
theorem exists_spelling_or_breaks (words : List String) :
    (∃ i : Instruction, words = i.spelling) ∨ ∃ fault, Breaks words fault := by
  rcases words with _ | ⟨head, _ | ⟨second, more⟩⟩
  · exact Or.inr ⟨_, .tooFew (by decide)⟩
  · exact Or.inr ⟨_, .tooFew (Nat.lt_succ_self 1)⟩
  · by_cases hhead : IsNameOf Action head
    · obtain ⟨action, rfl⟩ := hhead
      -- the keywords choose the pattern whose rules come next
      by_cases hmixing : mixingKeyword ∈ Vocabulary.name action :: second :: more
      · exact exists_spelling_or_breaks_of_mixing hmixing
      · by_cases htimed : timedKeyword ∈ Vocabulary.name action :: second :: more
        · exact exists_spelling_or_breaks_of_timed hmixing htimed
        · exact Or.inr ⟨_, .noKeyword (beginsWithAction_cons action second more) hmixing htimed⟩
    · exact Or.inr ⟨_, .noAction hhead⟩

/-- **Words are refused with the fault of the first rule that they break**, and for nothing else. -/
theorem ofWords_eq_error_iff {words : List String} {fault : CommandFault} :
    ofWords words = .error fault ↔ Breaks words fault := by
  constructor
  · intro h
    rcases exists_spelling_or_breaks words with ⟨i, rfl⟩ | ⟨other, hother⟩
    · rw [ofWords_spelling] at h
      cases h
    · rw [hother.ofWords_eq] at h
      rw [← Except.error.inj h]
      exact hother
  · exact Breaks.ofWords_eq

/-! ## Lines -/

theorem ofLine_eq_error_iff {line : String} {fault : CommandFault} : ofLine line = .error fault ↔
    isBlankOrComment line = false ∧ Breaks ((words line).map lowercase) fault := by
  rw [ofLine_eq, ← ofWords_eq_error_iff]
  cases isBlankOrComment line with
  | true => exact ⟨fun h => (by cases h), fun h => absurd h.1 (by simp)⟩
  | false =>
      cases ofWords ((words line).map lowercase) with
      | ok i => exact ⟨fun h => (by cases h), fun h => (by cases h.2)⟩
      | error other => exact ⟨fun h => ⟨rfl, (by cases h; rfl)⟩, fun h => (by cases h.2; rfl)⟩

/-- The word to blame is one of the words. -/
theorem Breaks.mem_of_offendingWord? {words : List String} {fault : CommandFault} {word : String}
    (h : Breaks words fault) (hword : fault.offendingWord? = some word) : word ∈ words := by
  cases h with
  | noAction _ => obtain rfl := Option.some.inj hword; simp
  | firstIngredient _ => obtain rfl := Option.some.inj hword; simp
  | secondIngredient _ => obtain rfl := Option.some.inj hword; simp
  | duration _ _ => obtain rfl := Option.some.inj hword; simp
  | unit _ _ => obtain rfl := Option.some.inj hword; simp
  | _ => cases hword

/--
**Every refusal names the first broken rule.** Words are refused with the fault of the first rule that
they break, and are the spelling of an instruction, and give it, if they break none. The names that a
fault offers in place of an unknown word are the whole vocabulary of the slot, in strictly increasing
order. A line is refused if it asks for something and its words, in small letters, are; the word that
is then to blame is a word of the line in small letters, so it is not empty and holds no blank.
-/
theorem refused_for_first_broken_rule (words : List String) (line : String) :
    (∀ fault, ofWords words = .error fault ↔ Breaks words fault)
      ∧ ((∀ fault, ¬ Breaks words fault) → ∃ i : Instruction, words = i.spelling ∧ ofWords words = .ok i)
      ∧ (∀ word, ∃ valid, (CommandFault.unknownAction word).alternatives? = some valid
        ∧ IsWholeVocabulary Action valid)
      ∧ (∀ word, ∃ valid, (CommandFault.unknownIngredient word).alternatives? = some valid
        ∧ IsWholeVocabulary Ingredient valid)
      ∧ (∀ word, ∃ valid, (CommandFault.unknownUnit word).alternatives? = some valid
        ∧ IsWholeVocabulary TimeUnit valid)
      ∧ (∀ fault, ofLine line = .error fault ↔
        isBlankOrComment line = false ∧ Breaks ((RecipeScript.words line).map lowercase) fault)
      ∧ ∀ fault word, ofLine line = .error fault → fault.offendingWord? = some word →
        IsSolid word ∧ ∃ raw ∈ RecipeScript.words line, word = lowercase raw := by
  refine ⟨fun fault => ofWords_eq_error_iff, fun h => ?_,
    fun word => ⟨_, rfl, Vocabulary.isWholeVocabulary_sortedNames (by decide)⟩,
    fun word => ⟨_, rfl, Vocabulary.isWholeVocabulary_sortedNames (by decide)⟩,
    fun word => ⟨_, rfl, Vocabulary.isWholeVocabulary_sortedNames (by decide)⟩,
    fun fault => ofLine_eq_error_iff, fun fault word hfault hword => ?_⟩
  · rcases exists_spelling_or_breaks words with ⟨i, rfl⟩ | ⟨fault, hbreaks⟩
    · exact ⟨i, rfl, ofWords_spelling i⟩
    · exact absurd hbreaks (h fault)
  · have hmem := (ofLine_eq_error_iff.mp hfault).2.mem_of_offendingWord? hword
    obtain ⟨raw, hraw, rfl⟩ := List.mem_map.mp hmem
    rw [← words_lowercase] at hmem
    exact ⟨isSolid_of_mem_words hmem, raw, hraw, rfl⟩

end Instruction

end RecipeScript
