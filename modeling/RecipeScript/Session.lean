import RecipeScript.Command
import RecipeScript.Recipe.Report

/-!
# Executing lines

One line at a time is read and, if it is a command, recorded in a recipe. A line has one of three outcomes, and only an
accepted line changes the recipe. Both ways of running a recipe, from a script and from a console, go through here.
-/

namespace RecipeScript

/-- What became of a line. -/
inductive Outcome where
  /-- The line is blank or a comment. -/
  | ignored
  /-- The line is a command, and this is the step that it became. -/
  | accepted (step : Step)
  /-- The line is no command. -/
  | rejected (fault : CommandFault)
deriving DecidableEq

/-- What is said of a step that was just recorded. -/
def Step.confirmation (s : Step) : String :=
  "✓ " ++ s.sentence

/-- Executes one line: the outcome, and the recipe after it. -/
def Recipe.execute (recipe : Recipe) (line : String) : Outcome × Recipe :=
  match Instruction.ofLine line with
  | .ok none => (.ignored, recipe)
  | .ok (some i) => (.accepted (recipe.nextStep i), recipe.record i)
  | .error fault => (.rejected fault, recipe)

end RecipeScript
