import RecipeScript.Text.Quoted

/-!
# Durations

A duration is a whole number, kept exactly as it was written: one or more ASCII digits, of any length and with any
leading zeros. Keeping the digits means that no bound on the numbers is needed and that a report shows what the cook
typed. Digits of other scripts, signs and points are not whole numbers here.
-/

namespace RecipeScript

/-- Whether a text is one or more ASCII digits. -/
def IsWholeNumber (s : String) : Prop :=
  s.toList ≠ [] ∧ ∀ c ∈ s.toList, c.isDigit = true

instance (s : String) : Decidable (IsWholeNumber s) :=
  decidable_of_bool (!s.toList.isEmpty && s.toList.all Char.isDigit) (by simp [IsWholeNumber])

/-- A whole number as it was written. -/
structure Duration where
  digits : String
  isWholeNumber : IsWholeNumber digits
deriving DecidableEq

namespace Duration

/-- Reads a word as a duration. -/
def ofWord? (word : String) : Option Duration :=
  if h : IsWholeNumber word then some ⟨word, h⟩ else none

theorem ofWord?_eq_some_iff {word : String} {d : Duration} : ofWord? word = some d ↔ word = d.digits := by
  unfold ofWord?
  constructor
  · intro h
    split at h
    · rw [← Option.some.inj h]
    · exact absurd h (by simp)
  · rintro rfl
    rw [dif_pos d.isWholeNumber]

/-- What is said of a word that is no duration. -/
def refusal (word : String) : String :=
  "not a whole number: " ++ quoted word

end Duration

end RecipeScript
