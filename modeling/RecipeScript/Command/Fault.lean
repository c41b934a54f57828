import RecipeScript.Vocabulary

/-!
# Why a line is not a command

Each fault names the first rule that a line breaks and keeps what is needed to mend it: the word to blame, or the way
in which the shape of the sentence is wrong. The alternatives that a message offers are the whole vocabulary of the
slot, so they need not be stored.
-/

namespace RecipeScript

/-- How a line that uses the keyword of a pattern fails to have its shape. -/
inductive ShapeDefect where
  /-- A pattern has four words; the line has this many. -/
  | wordCount (count : Nat)
  /-- The keyword is there, but not in its slot. -/
  | misplacedKeyword
deriving DecidableEq, Repr

/-- The first rule that a line breaks. -/
inductive CommandFault where
  /-- A command has at least two words. -/
  | malformed
  /-- A command begins with an action. -/
  | unknownAction (word : String)
  /-- A command contains the keyword of one of the patterns. -/
  | unrecognizedPattern
  /-- A line with the keyword of the mixing pattern has that pattern's shape. -/
  | malformedMixing (defect : ShapeDefect)
  /-- The slots beside the mixing keyword hold ingredients. -/
  | unknownIngredient (word : String)
  /-- A line with the keyword of the timed pattern has that pattern's shape. -/
  | malformedTimed (defect : ShapeDefect)
  /-- The slot after the timed keyword holds a whole number. -/
  | nonNumericDuration (word : String)
  /-- The last slot of a timed command holds a unit of time. -/
  | unknownUnit (word : String)
deriving DecidableEq, Repr

namespace CommandFault

/-- A fixed name for the kind of fault, which stays the same when the wording changes. -/
def code : CommandFault → String
  | malformed => "MALFORMED_COMMAND"
  | unknownAction _ => "UNKNOWN_ACTION"
  | unrecognizedPattern => "UNRECOGNIZED_PATTERN"
  | malformedMixing _ => "MALFORMED_MIXING"
  | unknownIngredient _ => "UNKNOWN_INGREDIENT"
  | malformedTimed _ => "MALFORMED_TIMED"
  | nonNumericDuration _ => "NON_NUMERIC_DURATION"
  | unknownUnit _ => "UNKNOWN_UNIT"

/-- The word to blame, if one word is. -/
def offendingWord? : CommandFault → Option String
  | unknownAction word | unknownIngredient word | nonNumericDuration word | unknownUnit word => some word
  | malformed | unrecognizedPattern | malformedMixing _ | malformedTimed _ => none

/-- The words that would be accepted in place of an unknown one, in alphabetical order. -/
def alternatives? : CommandFault → Option (List String)
  | unknownAction _ => some (Vocabulary.sortedNames Action)
  | unknownIngredient _ => some (Vocabulary.sortedNames Ingredient)
  | unknownUnit _ => some (Vocabulary.sortedNames TimeUnit)
  | malformed | unrecognizedPattern | malformedMixing _ | malformedTimed _ | nonNumericDuration _ => none

/-- A message about an unknown word. -/
private def unknownWord (kind word plural : String) (valid : List String) : String :=
  "Unknown " ++ kind ++ " '" ++ word ++ "'. Valid " ++ plural ++ ": " ++ ", ".intercalate valid

/-- The fault in words. -/
def message : CommandFault → String
  | malformed => "Invalid command"
  | unknownAction word => unknownWord "action" word "actions" (Vocabulary.sortedNames Action)
  | unrecognizedPattern =>
    "Unknown command pattern. Use 'action ingredient and ingredient' or 'action for number unit'"
  | malformedMixing (.wordCount _) =>
    "Invalid mixing command. Use format 'action ingredient1 and ingredient2'"
  | malformedMixing .misplacedKeyword => "Expected 'and' between ingredients"
  | unknownIngredient word => unknownWord "ingredient" word "ingredients" (Vocabulary.sortedNames Ingredient)
  | malformedTimed (.wordCount _) => "Invalid timed command. Use format 'action for number unit'"
  | malformedTimed .misplacedKeyword => "Expected 'for' after action"
  | nonNumericDuration word => "Time must be a number, got '" ++ word ++ "'"
  | unknownUnit word => unknownWord "time unit" word "units" (Vocabulary.sortedNames TimeUnit)

/-- The fault as it is shown to the cook. -/
def announcement (f : CommandFault) : String :=
  "Error: " ++ f.message

end CommandFault

end RecipeScript
