import RecipeScript.Duration
import RecipeScript.Vocabulary

/-!
# Instructions and steps

An instruction says one of two things: mix two ingredients, or do something for a time. A step is an instruction
with its place in a recipe, counted from one.

An instruction has two written forms. `spelling` is the command that gives it, word by word, as the language reads it;
`sentence` is what a recipe prints, which is the same command with its first letter capital. Since reading ignores
case, a printed sentence can be read back.
-/

namespace RecipeScript

/-- What one command asks for. -/
inductive Instruction where
  /-- Do something to two ingredients together. -/
  | mixing (action : Action) (first second : Ingredient)
  /-- Do something for a time. -/
  | timed (action : Action) (duration : Duration) (unit : TimeUnit)
deriving DecidableEq

/-- The word between the two ingredients of a mixing command. -/
def mixingKeyword : String := "and"

/-- The word in front of the time of a timed command. -/
def timedKeyword : String := "for"

namespace Instruction

/-- What is done. -/
def action : Instruction → Action
  | mixing action _ _ => action
  | timed action _ _ => action

/-- The ingredients that an instruction brings into a recipe; a timed one brings none. -/
def ingredients : Instruction → Option (Ingredient × Ingredient)
  | mixing _ first second => some (first, second)
  | timed _ _ _ => none

/-- The words of the command that gives the instruction. -/
def spelling : Instruction → List String
  | mixing action first second =>
    [Vocabulary.name action, Vocabulary.name first, mixingKeyword, Vocabulary.name second]
  | timed action duration unit =>
    [Vocabulary.name action, timedKeyword, duration.digits, Vocabulary.name unit]

/-- The instruction as a recipe prints it. -/
def sentence : Instruction → String
  | mixing action first second =>
    action.capitalized ++ " " ++ Vocabulary.name first ++ " and " ++ Vocabulary.name second
  | timed action duration unit =>
    action.capitalized ++ " for " ++ duration.digits ++ " " ++ Vocabulary.name unit

end Instruction

/-- An instruction with its place in a recipe. -/
structure Step where
  /-- The place, counted from one. -/
  number : Nat
  instruction : Instruction
deriving DecidableEq

/-- The step as a recipe prints it. -/
def Step.sentence (s : Step) : String :=
  "Step " ++ toString s.number ++ ": " ++ s.instruction.sentence

end RecipeScript
