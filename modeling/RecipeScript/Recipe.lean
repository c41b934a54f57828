import RecipeScript.Instruction

/-!
# Recipes

A recipe is what one session builds: its steps in order, and the ingredients that its mixing steps have used. Steps are
only ever added at the end, and take the next number when they are. The one way to remove anything is to start over,
which empties the steps and the ingredients together.

The ingredients are kept in the order of their first use and each only once; what a recipe shows is that list in
alphabetical order, so the order of use does not show.
-/

namespace RecipeScript

/-- The steps recorded so far, and the ingredients they use. -/
structure Recipe where
  steps : List Step
  /-- The ingredients used, in the order of their first use. -/
  used : List Ingredient
deriving DecidableEq

namespace Recipe

/-- The recipe without steps. -/
def empty : Recipe := ⟨[], []⟩

/-- Adds an ingredient to those in use, unless it is among them. -/
def use (used : List Ingredient) (ingredient : Ingredient) : List Ingredient :=
  if ingredient ∈ used then used else used ++ [ingredient]

/-- The step that an instruction becomes if it is recorded next. -/
def nextStep (r : Recipe) (i : Instruction) : Step :=
  ⟨r.steps.length + 1, i⟩

/-- Records an instruction as the next step. -/
def record (r : Recipe) (i : Instruction) : Recipe where
  steps := r.steps ++ [r.nextStep i]
  used := match i.ingredients with
    | some (first, second) => use (use r.used first) second
    | none => r.used

/-- Starts over. -/
def reset (_ : Recipe) : Recipe := empty

/-- The ingredients used so far, in alphabetical order. -/
def ingredients (r : Recipe) : List Ingredient :=
  Vocabulary.alphabetical r.used

end Recipe

end RecipeScript
