import RecipeScript.CommandLine
import RecipeScript.Console
import RecipeScript.Script
import RecipeScript.Settings.File

/-!
# The program

The command line, the environment and the settings decide what is done; then a script is run or a console session is held,
each on a recipe of its own that starts out empty. What is printed is the transcript of that run.

`plan` takes all decisions before the first byte of the input is read. So whatever can be told without it, the result of a
script included, cannot depend on it.

The exit code is 0 unless settings cannot be loaded, a script cannot be read or a session fails, which give 1, or the command
line cannot be understood, which gives 2. A script that is halted by a rejected line is not a failure of the program.
-/

namespace RecipeScript

/-- How the program ends: its exit code, and all that it printed. -/
structure Exit where
  code : Nat
  printed : String
deriving DecidableEq, Repr

/-- What the program is going to do. -/
inductive Plan where
  /-- Nothing more. -/
  | finish (exit : Exit)
  /-- Hold a console session. The flag tells whether an interrupt ends it with a farewell. -/
  | converse (options : ConsoleOptions) (handlesInterrupt : Bool)

namespace Program

/-- The lines in front of a console session. The last one is followed by an empty line. -/
def banner : List String :=
  ["==================================================",
    "  Welcome to RecipeLang Interactive Mode!",
    "==================================================",
    "Type 'help' for commands, 'quit' to exit\n"]

/-- The words that end a console session. -/
def exitWords : List String := ["quit", "exit"]

/-- Loads the settings that an invocation runs with. -/
def settings (files : Files) (env : Environment) (i : Invocation) : Except SettingsFault Settings :=
  match i.settingsFile with
  | some path => Settings.load files path
  | none => Settings.loadDefault files env

/-- Runs a script. -/
def runScript (files : Files) (options : ScriptOptions) (path : String) : Exit :=
  let (transcript, _, result) := Script.run files options Recipe.empty path
  match result with
  | .ok _ => ⟨0, transcript.shown⟩
  | .error fault => ⟨1, transcript.shown ++ fault.announcement ++ "\n"⟩

/-- The options of a console session. -/
def consoleOptions (s : ReplSettings) (format : ReportFormat) : ConsoleOptions where
  banner := if s.showBanner then banner else []
  prompt := s.prompt
  exitWords := exitWords
  farewell := some Console.defaultFarewell
  format := format

/-- Decides what to do. -/
def plan (args : List String) (env : Environment) (files : Files) : Plan :=
  match CommandLine.demand args with
  | .help => .finish ⟨0, CommandLine.summary⟩
  | .version => .finish ⟨0, CommandLine.versionText⟩
  | .unclear => .finish ⟨2, ""⟩
  | .run i =>
    match settings files env i with
    | .error _ => .finish ⟨1, ""⟩
    | .ok s =>
      let format := i.format.getD s.output.format
      match i.script with
      | some path => .finish (runScript files ⟨s.batch.stopOnError, format⟩ path)
      | none => .converse (consoleOptions s.repl format) s.repl.handleCtrlC

/-- How the program ends after a session. -/
def exitOf (run : ConsoleRun) : Exit :=
  match run.result with
  | .ok _ => ⟨0, run.transcript.shown⟩
  | .error _ => ⟨1, run.transcript.shown⟩

/-- Holds a console session. An interrupt that the session does not handle ends the program on the spot, without a farewell
and with the code that stands for it. -/
def converse (options : ConsoleOptions) (handlesInterrupt : Bool) (input : ConsoleInput) : Exit :=
  if input.interrupted && !handlesInterrupt then
    let run := Console.run { options with farewell := none } Recipe.empty input
    match run.result with
    | .ok .interrupted => ⟨130, run.transcript.shown⟩
    | _ => exitOf (Console.run options Recipe.empty input)
  else exitOf (Console.run options Recipe.empty input)

/-- Runs the program. -/
def run (args : List String) (env : Environment) (files : Files) (input : ConsoleInput) : Exit :=
  match plan args env files with
  | .finish exit => exit
  | .converse options handlesInterrupt => converse options handlesInterrupt input

/-- The paths that a run may look at. -/
def paths (args : List String) (env : Environment) : List String :=
  match CommandLine.demand args with
  | .run i => i.script.toList ++ i.settingsFile.toList ++ Settings.searchPaths env
  | _ => []

end Program

end RecipeScript
