import RecipeScript.HelpText
import RecipeScript.Session
import RecipeScript.Text.Lines
import RecipeScript.Transcript

/-!
# Running a console

A console session prompts for a line, handles it, and prompts again, until something ends it: an exit word, the end of the
input, an interrupt, a line that is not UTF-8, or a prompt that cannot be printed. Whatever ends it, lines after that are
never looked at.

A line is trimmed first. Then it is, in this order: nothing at all, if it is blank; an exit word, whatever its case; one of
the control words `help`, `recipe` and `clear`, whatever their case; and otherwise a line of the language, which may still
turn out to be a comment.

The input is all the bytes that will ever arrive. An interrupt arrives while the session waits for a line, after the last
line that was finished; an unfinished line is then never seen.
-/

namespace RecipeScript

/-- How a session is to be run. -/
structure ConsoleOptions where
  /-- Lines that are printed before the first prompt. -/
  banner : List String
  prompt : String
  /-- The words that end the session. -/
  exitWords : List String
  /-- What is said at the end, if anything. -/
  farewell : Option String
  /-- How the recipe is printed when the cook asks for it. -/
  format : ReportFormat

/-- Everything that reaches a session from outside. -/
structure ConsoleInput where
  /-- The bytes typed. -/
  bytes : List UInt8
  /-- Whether an interrupt follows the bytes, in place of the end of the input. -/
  interrupted : Bool
  /-- The prompt that cannot be printed, counted from one, and why. -/
  brokenPrompt : Option (Nat × String) := none

/-- Why a session ended well. -/
inductive ExitReason where
  | command
  | endOfInput
  | interrupted
deriving DecidableEq, Repr

/-- What a session printed, the recipe after it, and how it ended. -/
structure ConsoleRun where
  transcript : Transcript
  recipe : Recipe
  result : Except RunFault ExitReason

/-- Puts entries in front of a run. -/
def ConsoleRun.after (entries : Transcript) (run : ConsoleRun) : ConsoleRun :=
  { run with transcript := entries ++ run.transcript }

namespace Console

/-! ## Lines -/

/-- What a line asks of a session. -/
inductive Request where
  | nothing
  | exit
  | help
  | showRecipe
  | clear
  /-- A line of the language, trimmed. -/
  | statement (line : String)
deriving DecidableEq, Repr

/-- Whether two words are equal but for the case of ASCII letters. -/
def sameWord (a b : String) : Bool :=
  a.toList.map Char.toLower == b.toList.map Char.toLower

/-- What a line asks for. -/
def Request.ofLine (exitWords : List String) (line : String) : Request :=
  let line := trim line
  if line = "" then nothing
  else if exitWords.any (sameWord · line) then exit
  else match lowercase line with
    | "help" => help
    | "recipe" => showRecipe
    | "clear" => clear
    | _ => statement line

/-- What is printed when the recipe is cleared. -/
def clearedMessage : String := "✓ Recipe cleared!"

/-- What is said at the end of a session unless it is told otherwise. -/
def defaultFarewell : String := "Happy cooking! 👨‍🍳"

/-- What is said of a statement. -/
def verdict : Outcome → Transcript
  | .ignored => []
  | .accepted step => [.out step.confirmation]
  | .rejected fault => [.err fault.announcement]

/-- Handles a request that does not end the session. -/
def respond (format : ReportFormat) (recipe : Recipe) : Request → Transcript × Recipe
  | .nothing | .exit => ([], recipe)
  | .help => ([.out helpText], recipe)
  | .showRecipe => ([.out (recipe.render format)], recipe)
  | .clear => ([.out clearedMessage], recipe.reset)
  | .statement line =>
    let (outcome, recipe) := recipe.execute line
    (verdict outcome, recipe)

/-- What is said when a session ends well. After an exit word, the cursor is at the start of a line already. -/
def farewell (options : ConsoleOptions) (reason : ExitReason) : Transcript :=
  match options.farewell with
  | none => []
  | some message => match reason with
    | .command => [.out ("\n" ++ message)]
    | .endOfInput | .interrupted => [.out ("\n\n" ++ message)]

/-! ## Sessions -/

/-- What one line that was typed does: the entries it prints and the recipe after it, or the end of the session. -/
def handle (options : ConsoleOptions) (recipe : Recipe) (line : List UInt8) :
    Transcript × Recipe × Option (Except RunFault ExitReason) :=
  match Utf8.decode line with
  | .error fault => ([], recipe, some (.error (.inputOutput fault.message)))
  | .ok line =>
    match Request.ofLine options.exitWords line with
    | .exit => (farewell options .command, recipe, some (.ok .command))
    | request =>
      let (said, recipe) := respond options.format recipe request
      (said, recipe, none)

/-- Runs a session over the lines that are left, where `last` is how it ends after them and `broken` counts down to a
prompt that cannot be printed. -/
def runLines (options : ConsoleOptions) (last : ExitReason) (broken : Option (Nat × String)) (recipe : Recipe)
    (lines : List (List UInt8)) : ConsoleRun :=
  match broken with
  | some (1, cause) => ⟨[], recipe, .error (.inputOutput cause)⟩
  | _ =>
    match lines with
    | [] => ⟨.prompt options.prompt :: farewell options last, recipe, .ok last⟩
    | line :: lines =>
      let (said, recipe, ending) := handle options recipe line
      let said := .prompt options.prompt :: said
      match ending with
      | some result => ⟨said, recipe, result⟩
      | none =>
        let broken := broken.map fun (count, cause) => (count - 1, cause)
        .after said (runLines options last broken recipe lines)

/-- The byte of a line feed. -/
def lineFeed : UInt8 := 0x0A

/-- The byte of a carriage return. -/
def carriageReturn : UInt8 := 0x0D

/-- Runs a session. -/
def run (options : ConsoleOptions) (recipe : Recipe) (input : ConsoleInput) : ConsoleRun :=
  let lines := Lines.cut lineFeed carriageReturn input.bytes
  let session :=
    if input.interrupted then
      runLines options .interrupted input.brokenPrompt recipe lines.finished
    else runLines options .endOfInput input.brokenPrompt recipe lines.all
  .after (options.banner.map .out) session

end Console

end RecipeScript
