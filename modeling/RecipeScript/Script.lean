import RecipeScript.Session
import RecipeScript.Text.Lines
import RecipeScript.Transcript

/-!
# Running a script

A script is a text with a command on each line, blank lines and comments apart. Running it prints a header; then, for each
command, the line with its number and what became of it; and at the end the recipe. Lines are counted from one, blank
lines and comments included.

A rejected line either halts the run, in which case nothing after it is looked at and no recipe is printed, or is noted
and passed over. A script that cannot be read is reported before anything is printed.
-/

namespace RecipeScript

/-- How a script is to be run. -/
structure ScriptOptions where
  /-- Halt at the first rejected line. -/
  stopOnError : Bool
  /-- How the recipe is printed at the end. -/
  format : ReportFormat

/-- How a run ended. -/
inductive ScriptResult where
  /-- All lines were executed; these were rejected. -/
  | completed (failed : List Nat)
  /-- This line was rejected and halted the run. -/
  | halted (line : Nat)
deriving DecidableEq, Repr

/-- The lines of a script, executed: what was printed, the recipe after it, and how it ended. -/
structure ScriptRun where
  transcript : Transcript
  recipe : Recipe
  result : ScriptResult

/-- Puts entries in front of a run. -/
def ScriptRun.after (entries : Transcript) (run : ScriptRun) : ScriptRun :=
  { run with transcript := entries ++ run.transcript }

namespace Script

/-- The header of a run. -/
def header (path : String) : Entry :=
  .out ("Executing recipe from: " ++ path ++ "\n")

/-- A line of the script, before it is executed. -/
def echo (number : Nat) (line : String) : Entry :=
  .out ("[Line " ++ toString number ++ "] " ++ line)

/-- What is said of a line that was executed. A line that is ignored is passed over in silence. -/
def verdict : Outcome → Transcript
  | .ignored => []
  | .accepted step => [.out ("  → " ++ step.confirmation)]
  | .rejected fault => [.err ("  → " ++ fault.announcement)]

/-- What is said when a line halts the run. -/
def halt (number : Nat) : Entry :=
  .err ("\nExecution stopped at line " ++ toString number)

/-- Executes lines, the first of which has the given number. `failed` holds the numbers of the lines that were rejected so
far. -/
def executeFrom (options : ScriptOptions) (recipe : Recipe) (failed : List Nat) (number : Nat) :
    List String → ScriptRun
  | [] => ⟨[.out (recipe.render options.format)], recipe, .completed failed⟩
  | line :: lines =>
    let line := trim line
    if isBlankOrComment line then executeFrom options recipe failed (number + 1) lines
    else
      let (outcome, recipe) := recipe.execute line
      let said := echo number line :: verdict outcome
      match outcome with
      | .rejected _ =>
        if options.stopOnError then ⟨said ++ [halt number], recipe, .halted number⟩
        else .after said (executeFrom options recipe (failed ++ [number]) (number + 1) lines)
      | _ => .after said (executeFrom options recipe failed (number + 1) lines)

/-- Runs a script that was read. -/
def runText (options : ScriptOptions) (recipe : Recipe) (path text : String) : ScriptRun :=
  .after [header path] (executeFrom options recipe [] 1 (linesOf text))

/-- Runs the script at a path: what is printed, the recipe after it, and the result or the fault. -/
def run (files : Files) (options : ScriptOptions) (recipe : Recipe) (path : String) :
    Transcript × Recipe × Except RunFault ScriptResult :=
  match files.readText path with
  | .ok text =>
    let run := runText options recipe path text
    (run.transcript, run.recipe, .ok run.result)
  | .error cause => ([], recipe, .error (.ofRead path cause))

end Script

end RecipeScript
