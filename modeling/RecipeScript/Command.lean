import RecipeScript.Command.Fault
import RecipeScript.Instruction
import RecipeScript.Text.Blank
import RecipeScript.Text.Lowercase

/-!
# Reading a command

A line is trimmed, put into small letters and cut into words; the words are then matched against the two patterns

    action ingredient and ingredient
    action for number unit

The checks run in a fixed order and the first that fails is reported: enough words, an action in front, then the
pattern that the keywords choose (`and` wins over `for`, wherever they stand), its shape, and its slots from left to
right. A line that is blank or begins with `#` asks for nothing and is neither a command nor a fault.
-/

namespace RecipeScript

/-! ## Lines -/

/-- A line trimmed and in small letters, unless it is blank or a comment. -/
def normalize? (line : String) : Option String :=
  let normal := lowercase (trim line)
  match normal.toList with
  | [] => none
  | c :: _ => if c = '#' then none else some normal

/-! ## Words -/

namespace Instruction

/-- Reads a word that has to be an ingredient. -/
def ingredientOfWord (word : String) : Except CommandFault Ingredient :=
  match Vocabulary.ofName? word with
  | some ingredient => .ok ingredient
  | none => .error (.unknownIngredient word)

/-- Reads a word that has to be a whole number. -/
def durationOfWord (word : String) : Except CommandFault Duration :=
  match Duration.ofWord? word with
  | some duration => .ok duration
  | none => .error (.nonNumericDuration word)

/-- Reads a word that has to be a unit of time. -/
def unitOfWord (word : String) : Except CommandFault TimeUnit :=
  match Vocabulary.ofName? word with
  | some unit => .ok unit
  | none => .error (.unknownUnit word)

/-- Reads words, one of which is the mixing keyword. -/
def mixingOfWords (action : Action) : List String → Except CommandFault Instruction
  | [_, first, keyword, second] =>
    if keyword = mixingKeyword then do
      let first ← ingredientOfWord first
      let second ← ingredientOfWord second
      return mixing action first second
    else .error (.malformedMixing .misplacedKeyword)
  | words => .error (.malformedMixing (.wordCount words.length))

/-- Reads words, one of which is the timed keyword and none the mixing keyword. -/
def timedOfWords (action : Action) : List String → Except CommandFault Instruction
  | [_, keyword, duration, unit] =>
    if keyword = timedKeyword then do
      let duration ← durationOfWord duration
      let unit ← unitOfWord unit
      return timed action duration unit
    else .error (.malformedTimed .misplacedKeyword)
  | words => .error (.malformedTimed (.wordCount words.length))

/-- Reads the words of a command, which have to be in small letters already. -/
def ofWords (words : List String) : Except CommandFault Instruction :=
  match words with
  | head :: _ :: _ =>
    match Vocabulary.ofName? head with
    | none => .error (.unknownAction head)
    | some action =>
      if mixingKeyword ∈ words then mixingOfWords action words
      else if timedKeyword ∈ words then timedOfWords action words
      else .error .unrecognizedPattern
  | _ => .error .malformed

/-- Reads a line. A blank line and a comment give no instruction. Whoever executes lines need not know how they are
read, so this is not opened on its own. -/
@[irreducible] def ofLine (line : String) : Except CommandFault (Option Instruction) :=
  match normalize? line with
  | none => .ok none
  | some normal => some <$> ofWords (words normal)

end Instruction

end RecipeScript
