import RecipeScript.Proofs.BrokenRules

/-!
# Mending a refused line

A fault that blames a word also says what to put in its place. Putting that there gets the words past
the rule they broke: they are then a command, or break a rule that comes later. And nothing else helps:
with any other word in the slot, a keyword for instance, the words are still no command.

A keyword in the wrong slot sends the words to other rules, so it matters what is known of the words
that stay. Past an action nothing is (`movesOn_action`), and all the rules of a pattern may still be
broken; in front of every later slot the words that stay fix the pattern.
-/

namespace RecipeScript

open Vocabulary (IsNameOf)

/-- Whether a fault offers this word in place of the one to blame, or, where it offers no list, asks
for a word of this kind. -/
def CommandFault.IsMendedBy : CommandFault → String → Prop
  | nonNumericDuration _, word => IsWholeNumber word
  | fault, word => ∃ valid, fault.alternatives? = some valid ∧ word ∈ valid

/-- The words that a fault offers are the names of the vocabulary that it lists. -/
theorem CommandFault.offers_iff {α : Type} [Vocabulary α] {fault : CommandFault} {word : String}
    (h : fault.alternatives? = some (Vocabulary.sortedNames α)) :
    (∃ valid, fault.alternatives? = some valid ∧ word ∈ valid) ↔ IsNameOf α word := by
  rw [← Vocabulary.mem_sortedNames]
  constructor
  · rintro ⟨valid, hvalid, hword⟩
    rw [h] at hvalid
    rw [Option.some.inj hvalid]
    exact hword
  · exact fun hword => ⟨_, h, hword⟩

namespace Instruction

/-- The rules, in the order in which they are checked. -/
inductive Rule where
  | twoWords
  | action
  | mixingCount
  | mixingPlace
  | firstIngredient
  | secondIngredient
  | timedCount
  | timedPlace
  | duration
  | unit
  /-- There is a keyword; this is left once neither pattern applies. -/
  | keyword
deriving DecidableEq, Repr

/-- One rule comes before another if it is checked earlier. -/
instance : LT Rule := ⟨fun rule other => rule.ctorIdx < other.ctorIdx⟩

instance (rule other : Rule) : Decidable (rule < other) :=
  inferInstanceAs (Decidable (rule.ctorIdx < other.ctorIdx))

/-- The slot that a rule is about, if it is about one. -/
def Rule.slot? : Rule → Option Nat
  | action => some 0
  | firstIngredient => some 1
  | secondIngredient => some 3
  | duration => some 2
  | unit => some 3
  | twoWords | mixingCount | mixingPlace | timedCount | timedPlace | keyword => none

/-- Of all rules only two are not checked after the one about the action, and no later rule is about
its slot. -/
theorem Rule.action_lt {rule : Rule} (htwo : rule ≠ .twoWords) (haction : rule ≠ .action) :
    Rule.action < rule ∧ rule.slot? ≠ some 0 := by
  revert htwo haction
  cases rule <;> decide

/-- The rule that a fault is about. Of the two slots for an ingredient it is the second if the first
one holds an ingredient. -/
def brokenRule (words : List String) : CommandFault → Rule
  | .malformed => .twoWords
  | .unknownAction _ => .action
  | .unrecognizedPattern => .keyword
  | .malformedMixing (.wordCount _) => .mixingCount
  | .malformedMixing .misplacedKeyword => .mixingPlace
  | .unknownIngredient _ =>
    if ∃ first ∈ words[1]?, IsNameOf Ingredient first then .secondIngredient else .firstIngredient
  | .malformedTimed (.wordCount _) => .timedCount
  | .malformedTimed .misplacedKeyword => .timedPlace
  | .nonNumericDuration _ => .duration
  | .unknownUnit _ => .unit

/-- With this word in the slot, the words are a command or break a later rule, about another slot. -/
def MovesOn (words : List String) (rule : Rule) (slot : Nat) (word : String) : Prop :=
  (∃ i, ofWords (words.set slot word) = .ok i)
    ∨ ∃ fault, ofWords (words.set slot word) = .error fault
      ∧ rule < brokenRule (words.set slot word) fault
      ∧ (brokenRule (words.set slot word) fault).slot? ≠ some slot

/-! ## What helps -/

section Helps

variable {action : Action} {head first second duration unit word : String} {more : List String}

theorem brokenRule_of_first (h : ¬ IsNameOf Ingredient first) :
    brokenRule (head :: first :: more) (.unknownIngredient word) = .firstIngredient :=
  if_neg fun ⟨_, hfirst, hname⟩ => h (Option.some.inj hfirst ▸ hname)

theorem brokenRule_of_second (a : Ingredient) :
    brokenRule (head :: Vocabulary.name a :: more) (.unknownIngredient word) = .secondIngredient :=
  if_pos ⟨_, rfl, a, rfl⟩

/-- Words that begin with an action break no rule up to that one. -/
theorem action_lt_brokenRule {fault : CommandFault}
    (h : Breaks (Vocabulary.name action :: second :: more) fault) :
    Rule.action < brokenRule (Vocabulary.name action :: second :: more) fault
      ∧ (brokenRule (Vocabulary.name action :: second :: more) fault).slot? ≠ some 0 := by
  generalize hwords : Vocabulary.name action :: second :: more = words at h
  cases h with
  | tooFew hlength =>
      subst hwords
      exact absurd hlength (by simp)
  | noAction hhead => exact absurd ⟨action, (List.cons.inj hwords).1.symm⟩ hhead
  | firstIngredient hfirst =>
      rw [brokenRule_of_first hfirst]
      decide
  | secondIngredient _ =>
      rw [brokenRule_of_second]
      decide
  | _ => exact Rule.action_lt (by intro h; cases h) (by intro h; cases h)

theorem movesOn_action (h : IsNameOf Action word) :
    MovesOn (head :: second :: more) .action 0 word := by
  obtain ⟨action, rfl⟩ := h
  rcases exists_spelling_or_breaks (Vocabulary.name action :: second :: more) with ⟨i, hi⟩ | ⟨fault, hfault⟩
  · exact Or.inl ⟨i, ofWords_eq_ok_iff.mpr hi⟩
  · exact Or.inr ⟨fault, hfault.ofWords_eq, action_lt_brokenRule hfault⟩

theorem movesOn_firstIngredient (h : IsNameOf Ingredient word) :
    MovesOn [Vocabulary.name action, first, mixingKeyword, second] .firstIngredient 1 word := by
  obtain ⟨a, rfl⟩ := h
  by_cases hsecond : IsNameOf Ingredient second
  · obtain ⟨b, rfl⟩ := hsecond
    exact Or.inl ⟨.mixing action a b, ofWords_spelling (.mixing action a b)⟩
  · refine Or.inr ⟨_, (Breaks.secondIngredient hsecond).ofWords_eq, ?_⟩
    have hrule : brokenRule [Vocabulary.name action, Vocabulary.name a, mixingKeyword, second]
        (.unknownIngredient second) = .secondIngredient := brokenRule_of_second a
    rw [List.set_cons_succ, List.set_cons_zero, hrule]
    decide

theorem movesOn_secondIngredient (a : Ingredient) (h : IsNameOf Ingredient word) :
    MovesOn [Vocabulary.name action, Vocabulary.name a, mixingKeyword, second] .secondIngredient 3 word := by
  obtain ⟨b, rfl⟩ := h
  exact Or.inl ⟨.mixing action a b, ofWords_spelling (.mixing action a b)⟩

/-- Neither a number nor anything in front of it is the mixing keyword. -/
theorem mixingKeyword_not_mem_set (d : Duration)
    (h : mixingKeyword ∉ [Vocabulary.name action, timedKeyword, duration, unit]) :
    mixingKeyword ∉ [Vocabulary.name action, timedKeyword, d.digits, unit] := by
  simp only [List.mem_cons, List.not_mem_nil, or_false, not_or] at h ⊢
  exact ⟨h.1, h.2.1, (digits_ne_mixingKeyword d).symm, h.2.2.2⟩

theorem movesOn_duration (hmixing : mixingKeyword ∉ [Vocabulary.name action, timedKeyword, duration, unit])
    (h : IsWholeNumber word) :
    MovesOn [Vocabulary.name action, timedKeyword, duration, unit] .duration 2 word := by
  by_cases hunit : IsNameOf TimeUnit unit
  · obtain ⟨u, rfl⟩ := hunit
    exact Or.inl ⟨.timed action ⟨word, h⟩ u, ofWords_spelling (.timed action ⟨word, h⟩ u)⟩
  · have hmixing' := mixingKeyword_not_mem_set ⟨word, h⟩ hmixing
    have hlater : Rule.duration < Rule.unit ∧ Rule.unit.slot? ≠ some 2 := by decide
    exact Or.inr ⟨_, (Breaks.unit hmixing' hunit).ofWords_eq, hlater⟩

theorem movesOn_unit (d : Duration) (h : IsNameOf TimeUnit word) :
    MovesOn [Vocabulary.name action, timedKeyword, d.digits, unit] .unit 3 word := by
  obtain ⟨u, rfl⟩ := h
  exact Or.inl ⟨.timed action d u, ofWords_spelling (.timed action d u)⟩

end Helps

/-! ## What does not help -/

section Spelled

variable {head first second keyword duration unit : String} {words more : List String} {i : Instruction}

theorem isNameOf_of_spelling_cons (h : head :: more = i.spelling) : IsNameOf Action head := by
  cases i with
  | mixing action _ _ => exact ⟨action, (List.cons.inj h).1⟩
  | timed action _ _ => exact ⟨action, (List.cons.inj h).1⟩

/-- Words with the mixing keyword in its slot spell no timed instruction. -/
theorem isNameOf_of_spelling_mixing (h : [head, first, mixingKeyword, second] = i.spelling) :
    IsNameOf Ingredient first ∧ IsNameOf Ingredient second := by
  cases i with
  | mixing action a b =>
      simp only [spelling, List.cons.injEq] at h
      exact ⟨⟨a, h.2.1⟩, ⟨b, h.2.2.2.1⟩⟩
  | timed action d u =>
      simp only [spelling, List.cons.injEq] at h
      exact absurd h.2.2.1.symm (digits_ne_mixingKeyword d)

theorem name_ne_timedKeyword (a : Ingredient) : Vocabulary.name a ≠ timedKeyword := by
  cases a <;> decide

/-- Words with the timed keyword in its slot spell no mixing instruction. -/
theorem isNameOf_of_spelling_timed (h : [head, timedKeyword, duration, unit] = i.spelling) :
    IsWholeNumber duration ∧ IsNameOf TimeUnit unit := by
  cases i with
  | mixing action a b =>
      simp only [spelling, List.cons.injEq] at h
      exact absurd h.2.1.symm (name_ne_timedKeyword a)
  | timed action d u =>
      simp only [spelling, List.cons.injEq] at h
      exact ⟨h.2.2.1 ▸ d.isWholeNumber, ⟨u, h.2.2.2.1⟩⟩

end Spelled

/-- A fault that blames a word has a slot, and in that slot the words that it asks for help and no others. -/
theorem Breaks.exists_slot {words : List String} {fault : CommandFault} {blamed : String}
    (h : Breaks words fault) (hblamed : fault.offendingWord? = some blamed) :
    ∃ slot, (brokenRule words fault).slot? = some slot ∧ words[slot]? = some blamed
      ∧ (∀ word, fault.IsMendedBy word → MovesOn words (brokenRule words fault) slot word)
      ∧ ∀ word i, ofWords (words.set slot word) = .ok i → fault.IsMendedBy word := by
  cases h with
  | noAction _ =>
      refine ⟨0, rfl, hblamed, fun word hword => ?_, fun word i hi => ?_⟩
      · exact movesOn_action ((CommandFault.offers_iff rfl).mp hword)
      · have hname := isNameOf_of_spelling_cons (ofWords_eq_ok_iff.mp hi)
        exact (CommandFault.offers_iff rfl).mpr hname
  | firstIngredient hfirst =>
      rw [brokenRule_of_first hfirst]
      refine ⟨1, rfl, hblamed, fun word hword => ?_, fun word i hi => ?_⟩
      · exact movesOn_firstIngredient ((CommandFault.offers_iff rfl).mp hword)
      · have hnames := isNameOf_of_spelling_mixing (ofWords_eq_ok_iff.mp hi)
        exact (CommandFault.offers_iff rfl).mpr hnames.1
  | @secondIngredient _ first _ _ =>
      rw [brokenRule_of_second]
      refine ⟨3, rfl, hblamed, fun word hword => ?_, fun word i hi => ?_⟩
      · exact movesOn_secondIngredient first ((CommandFault.offers_iff rfl).mp hword)
      · have hnames := isNameOf_of_spelling_mixing (ofWords_eq_ok_iff.mp hi)
        exact (CommandFault.offers_iff rfl).mpr hnames.2
  | duration hmixing _ =>
      refine ⟨2, rfl, hblamed, fun word hword => ?_, fun word i hi => ?_⟩
      · exact movesOn_duration hmixing hword
      · exact (isNameOf_of_spelling_timed (ofWords_eq_ok_iff.mp hi)).1
  | @unit _ duration _ _ _ =>
      refine ⟨3, rfl, hblamed, fun word hword => ?_, fun word i hi => ?_⟩
      · exact movesOn_unit duration ((CommandFault.offers_iff rfl).mp hword)
      · have hnames := isNameOf_of_spelling_timed (ofWords_eq_ok_iff.mp hi)
        exact (CommandFault.offers_iff rfl).mpr hnames.2
  | _ => cases hblamed

/--
**A fault that blames a word says what mends it.** The word stands in the slot of the broken rule. Any
word that the fault offers, or any number where it asks for one, makes the words a command if it is put
there, or lets them on to a later rule about another slot. No other word makes them a command.
-/
theorem mended_by_offered_words {words : List String} {fault : CommandFault} {blamed : String}
    (h : ofWords words = .error fault) (hblamed : fault.offendingWord? = some blamed) :
    ∃ slot, (brokenRule words fault).slot? = some slot ∧ words[slot]? = some blamed
      ∧ (∀ word, fault.IsMendedBy word → (∃ i, ofWords (words.set slot word) = .ok i)
        ∨ ∃ later, ofWords (words.set slot word) = .error later
          ∧ brokenRule words fault < brokenRule (words.set slot word) later
          ∧ (brokenRule (words.set slot word) later).slot? ≠ some slot)
      ∧ ∀ word, ¬ fault.IsMendedBy word → ∀ i, ofWords (words.set slot word) ≠ .ok i := by
  obtain ⟨slot, hslot, hword, hhelps, honly⟩ := (ofWords_eq_error_iff.mp h).exists_slot hblamed
  exact ⟨slot, hslot, hword, hhelps, fun word hnot i hi => hnot (honly word i hi)⟩

/-- A duration that is no number, in front of a unit that is none either. -/
theorem mended_by_number :
    let words := ["bake", "for", "ten", "fortnights"]
    let fault := CommandFault.nonNumericDuration "ten"
    ofWords words = .error fault ∧ fault.offendingWord? = some "ten"
      ∧ ∃ slot, (brokenRule words fault).slot? = some slot ∧ words[slot]? = some "ten"
        ∧ (∀ word, fault.IsMendedBy word → (∃ i, ofWords (words.set slot word) = .ok i)
          ∨ ∃ later, ofWords (words.set slot word) = .error later
            ∧ brokenRule words fault < brokenRule (words.set slot word) later
            ∧ (brokenRule (words.set slot word) later).slot? ≠ some slot)
        ∧ ∀ word, ¬ fault.IsMendedBy word → ∀ i, ofWords (words.set slot word) ≠ .ok i :=
  ⟨by decide +kernel, rfl, mended_by_offered_words (by decide +kernel) rfl⟩

end Instruction

end RecipeScript
