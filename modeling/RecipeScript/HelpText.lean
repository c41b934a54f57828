import RecipeScript.Vocabulary

/-!
# The help text

What a console shows when the cook asks for help. The lists of words come from the vocabularies, in order of declaration.
-/

namespace RecipeScript

/-- The words of a vocabulary on one line. -/
def wordList (α : Type) [Vocabulary α] : String :=
  ", ".intercalate (Vocabulary.names α)

/-- The help text. It begins with an empty line and ends with a line feed. -/
def helpText : String :=
  "\n".intercalate
    ["",
      "RecipeLang - A Simple Recipe Programming Language",
      "=================================================",
      "",
      "COMMAND PATTERNS:",
      "  1. Mix ingredients:  <action> <ingredient1> and <ingredient2>",
      "  2. Timed actions:    <action> for <number> <unit>",
      "",
      "VALID ACTIONS:",
      "  " ++ wordList Action,
      "",
      "VALID INGREDIENTS:",
      "  " ++ wordList Ingredient,
      "",
      "VALID TIME UNITS:",
      "  " ++ wordList TimeUnit,
      "",
      "EXAMPLE COMMANDS:",
      "  mix flour and eggs",
      "  add sugar and butter",
      "  bake for 30 minutes",
      "  cool for 10 minutes",
      "",
      "SPECIAL COMMANDS:",
      "  help     - Show this help",
      "  recipe   - Display current recipe",
      "  clear    - Clear current recipe",
      "  quit     - Exit the interpreter",
      ""]

end RecipeScript
