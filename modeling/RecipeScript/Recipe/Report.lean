import RecipeScript.Instruction.Json
import RecipeScript.Recipe

/-!
# Reports

A recipe is printed in one of two forms. The text is for the cook: a title between rules, the ingredients if there are
any, and the steps. The JSON is for other programs: an object with the ingredients and the steps, laid out over lines.
A recipe without steps has a sentence in place of its text; its JSON is the object with two empty lists.
-/

namespace RecipeScript

/-- The form in which a recipe is printed. -/
inductive ReportFormat where
  | text | json
deriving DecidableEq, Repr

instance : Vocabulary ReportFormat where
  all := [.text, .json]
  name
    | .text => "text"
    | .json => "json"
  mem_all a := by cases a <;> decide
  name_inj a b := by cases a <;> cases b <;> decide

namespace Recipe

/-- What is printed for a recipe without steps. -/
def emptyMessage : String := "No recipe steps yet!"

/-- The line above and below the title, and at the end. -/
def rule : String := "=================================================="

/-- The title line. -/
def title : String := "           YOUR RECIPE"

/-- The lines about the ingredients, if there are any. -/
def ingredientLines (r : Recipe) : List String :=
  match r.ingredients with
  | [] => []
  | ingredients => ["INGREDIENTS:", "  " ++ ", ".intercalate (ingredients.map Vocabulary.name), ""]

/-- The line of a step. -/
def stepLine (s : Step) : String :=
  "  " ++ s.sentence

/-- The lines of the text of a recipe that has steps. The last line is empty, so the text ends with a line feed. -/
def reportLines (r : Recipe) : List String :=
  ["", rule, title, rule, ""] ++ r.ingredientLines ++ ["INSTRUCTIONS:"] ++ r.steps.map stepLine ++ ["", rule, ""]

/-- The recipe as text. -/
def report (r : Recipe) : String :=
  match r.steps with
  | [] => emptyMessage
  | _ :: _ => "\n".intercalate r.reportLines

/-- The recipe as JSON. -/
def toJson (r : Recipe) : Json :=
  Json.ofMembers
    [("ingredients", Json.ofList (r.ingredients.map Instruction.wordJson)),
      ("steps", Json.ofList (r.steps.map Step.toJson))]

/-- The recipe as JSON text. -/
def jsonReport (r : Recipe) : String :=
  r.toJson.toPrettyText

/-- The recipe in the wanted form. -/
def render (r : Recipe) : ReportFormat → String
  | .text => r.report
  | .json => r.jsonReport

end Recipe

end RecipeScript
