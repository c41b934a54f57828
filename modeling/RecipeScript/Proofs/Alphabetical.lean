import Mathlib.Data.List.Sort
import Mathlib.Data.String.Basic
import RecipeScript.Vocabulary

/-!
# Alphabetical order

Words are put into alphabetical order by inserting them one by one. Nothing is lost on the way and
nothing added (`mem_alphabetical`), and words that are all different come out in strictly increasing
order (`pairwise_alphabetical`): two words of one spelling are the same word.

So the names that a message offers are all the names of their vocabulary, each of them once.
-/

namespace RecipeScript

namespace Vocabulary

variable {α : Type} [Vocabulary α] {a b : α} {as : List α}

theorem mem_insert : b ∈ insert a as ↔ b = a ∨ b ∈ as := by
  induction as with
  | nil => rw [insert, List.mem_singleton, or_iff_left List.not_mem_nil]
  | cons c as ih =>
      rw [insert]
      split
      · exact List.mem_cons
      · rw [List.mem_cons, ih, List.mem_cons, or_left_comm]

theorem mem_alphabetical : a ∈ alphabetical as ↔ a ∈ as := by
  induction as with
  | nil => rfl
  | cons b as ih =>
      show a ∈ insert b (alphabetical as) ↔ a ∈ b :: as
      rw [mem_insert, ih, List.mem_cons]

/-- Of two different words that are not in order, the other way round they are. -/
theorem lt_of_ne_of_not_lt (hne : a ≠ b) (h : ¬ name a < name b) : name b < name a :=
  lt_of_le_of_ne (not_lt.mp h) fun hname => hne (name_inj a b hname.symm)

theorem pairwise_insert (h : as.Pairwise fun b c => name b < name c) (ha : a ∉ as) :
    (insert a as).Pairwise fun b c => name b < name c := by
  induction as with
  | nil => exact List.pairwise_singleton _ a
  | cons b as ih =>
      obtain ⟨hb, has⟩ := List.pairwise_cons.mp h
      rw [List.mem_cons, not_or] at ha
      rw [insert]
      split
      · rename_i hlt
        refine List.pairwise_cons.mpr ⟨fun c hc => ?_, h⟩
        rcases List.mem_cons.mp hc with rfl | hc
        · exact hlt
        · exact lt_trans hlt (hb c hc)
      · rename_i hlt
        refine List.pairwise_cons.mpr ⟨fun c hc => ?_, ih has ha.2⟩
        rcases mem_insert.mp hc with rfl | hc
        · exact lt_of_ne_of_not_lt ha.1 hlt
        · exact hb c hc

/-- **Different words come out in strictly increasing order.** -/
theorem pairwise_alphabetical (h : as.Nodup) :
    (alphabetical as).Pairwise fun b c => name b < name c := by
  induction as with
  | nil => exact List.Pairwise.nil
  | cons a as ih =>
      obtain ⟨ha, has⟩ := List.nodup_cons.mp h
      exact pairwise_insert (ih has) fun hmem => ha (mem_alphabetical.mp hmem)

/-- **The order in which different words are given does not show.** -/
theorem alphabetical_eq_of_mem_iff {bs : List α} (has : as.Nodup) (hbs : bs.Nodup)
    (h : ∀ a, a ∈ as ↔ a ∈ bs) : alphabetical as = alphabetical bs := by
  have hirrefl : Std.Irrefl fun a b : α => name a < name b := ⟨fun a => lt_irrefl (name a)⟩
  refine (pairwise_alphabetical has).eq_of_mem_iff (pairwise_alphabetical hbs) fun a => ?_
  rw [mem_alphabetical, mem_alphabetical, h]

/-! ## Names -/

/-- Whether a word is one of a vocabulary. -/
def IsNameOf (α : Type) [Vocabulary α] (word : String) : Prop :=
  ∃ a : α, word = name a

theorem ofName?_eq_none_iff {word : String} :
    (ofName? word : Option α) = none ↔ ¬ IsNameOf α word := by
  rw [Option.eq_none_iff_forall_ne_some]
  constructor
  · rintro h ⟨a, ha⟩
    exact h a (ofName?_eq_some_iff.mpr ha)
  · exact fun h a ha => h ⟨a, ofName?_eq_some_iff.mp ha⟩

instance (word : String) : Decidable (IsNameOf α word) :=
  decidable_of_iff ((ofName? word : Option α) ≠ none) (by rw [ne_eq, ofName?_eq_none_iff, not_not])

/-- These are all the names of a vocabulary, in strictly increasing order. -/
def IsWholeVocabulary (α : Type) [Vocabulary α] (names : List String) : Prop :=
  names.Pairwise (· < ·) ∧ ∀ word, word ∈ names ↔ IsNameOf α word

theorem mem_sortedNames {word : String} : word ∈ sortedNames α ↔ IsNameOf α word := by
  rw [sortedNames, List.mem_map]
  constructor
  · rintro ⟨a, -, rfl⟩
    exact ⟨a, rfl⟩
  · rintro ⟨a, rfl⟩
    exact ⟨a, mem_alphabetical.mpr (mem_all a), rfl⟩

/-- **A vocabulary that declares no word twice is listed whole and in order.** -/
theorem isWholeVocabulary_sortedNames (h : (all : List α).Nodup) :
    IsWholeVocabulary α (sortedNames α) :=
  ⟨List.pairwise_map.mpr (pairwise_alphabetical h), fun _ => mem_sortedNames⟩

end Vocabulary

end RecipeScript
