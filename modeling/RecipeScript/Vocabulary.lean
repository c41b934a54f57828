/-!
# The closed vocabularies

Every word that a command may use belongs to one of three fixed lists: what is done, what it is done to, and how
time is counted. A word has one spelling, in small letters, and spellings never repeat, so looking a word up by its
spelling and writing a word down undo each other.

The order of declaration is the order of the help text. Messages about an unknown word list the alternatives in
alphabetical order instead, and so do recipes.
-/

namespace RecipeScript

/-- A finite list of words with their spellings. -/
class Vocabulary (α : Type) where
  /-- Every word, in order of declaration. -/
  all : List α
  /-- The spelling of a word. -/
  name : α → String
  /-- No word is left out. -/
  mem_all : ∀ a, a ∈ all
  /-- Different words are spelled differently. -/
  name_inj : ∀ a b, name a = name b → a = b

namespace Vocabulary

/-- The word with the given spelling, if there is one. -/
def ofName? {α : Type} [Vocabulary α] (word : String) : Option α :=
  all.find? fun a => name a == word

/-- The spellings of all words, in order of declaration. -/
def names (α : Type) [Vocabulary α] : List String :=
  (all : List α).map name

/-- Puts a word in its place in an alphabetical list. -/
def insert {α : Type} [Vocabulary α] (a : α) : List α → List α
  | [] => [a]
  | b :: bs => if name a < name b then a :: b :: bs else b :: insert a bs

/-- Words in alphabetical order of their spellings. -/
def alphabetical {α : Type} [Vocabulary α] (as : List α) : List α :=
  as.foldr insert []

/-- The spellings of all words, in alphabetical order. -/
def sortedNames (α : Type) [Vocabulary α] : List String :=
  (alphabetical (all : List α)).map name

variable {α : Type} [Vocabulary α]

theorem ofName?_eq_some_iff {word : String} {a : α} : ofName? word = some a ↔ word = name a := by
  constructor
  · intro h
    have ha := List.find?_some (p := fun b => name b == word) h
    exact (eq_of_beq ha).symm
  · rintro rfl
    cases h : (ofName? (name a) : Option α) with
    | none =>
      have := List.find?_eq_none.mp h a (mem_all a)
      simp at this
    | some b =>
      have hb := List.find?_some (p := fun b => name b == name a) h
      rw [name_inj b a (eq_of_beq hb)]

/-- Looking up the spelling of a word finds the word. -/
@[simp] theorem ofName?_name (a : α) : ofName? (name a) = some a :=
  ofName?_eq_some_iff.mpr rfl

end Vocabulary

/-- What a command does. -/
inductive Action where
  | mix | add | bake | heat | cool
deriving DecidableEq, Repr

/-- What can be mixed. -/
inductive Ingredient where
  | flour | eggs | sugar | butter | milk | salt | water | vanilla
deriving DecidableEq, Repr

/-- How time is counted. -/
inductive TimeUnit where
  | minutes | hours | seconds
deriving DecidableEq, Repr

instance : Vocabulary Action where
  all := [.mix, .add, .bake, .heat, .cool]
  name
    | .mix => "mix"
    | .add => "add"
    | .bake => "bake"
    | .heat => "heat"
    | .cool => "cool"
  mem_all a := by cases a <;> decide
  name_inj a b := by cases a <;> cases b <;> decide

instance : Vocabulary Ingredient where
  all := [.flour, .eggs, .sugar, .butter, .milk, .salt, .water, .vanilla]
  name
    | .flour => "flour"
    | .eggs => "eggs"
    | .sugar => "sugar"
    | .butter => "butter"
    | .milk => "milk"
    | .salt => "salt"
    | .water => "water"
    | .vanilla => "vanilla"
  mem_all a := by cases a <;> decide
  name_inj a b := by cases a <;> cases b <;> decide

instance : Vocabulary TimeUnit where
  all := [.minutes, .hours, .seconds]
  name
    | .minutes => "minutes"
    | .hours => "hours"
    | .seconds => "seconds"
  mem_all a := by cases a <;> decide
  name_inj a b := by cases a <;> cases b <;> decide

/-- An action as it opens a sentence. -/
def Action.capitalized : Action → String
  | .mix => "Mix"
  | .add => "Add"
  | .bake => "Bake"
  | .heat => "Heat"
  | .cool => "Cool"

end RecipeScript
