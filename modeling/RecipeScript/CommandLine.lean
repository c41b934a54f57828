import RecipeScript.Recipe.Report

/-!
# The command line

A command line names at most one script, and may set options. It is read from left to right, and the first thing that
decides about it does: an argument that cannot be understood is an error even if help is asked for after it, and asking for
help ends the reading even if an error comes after it.

An option with a value takes it from behind an equals sign or from the next argument, which may not look like an option
itself. Options without a value may also be given by a letter, and letters may be put together. After a double dash
everything is the name of a script. Nothing may be given twice.
-/

namespace RecipeScript

/-- What a command line that runs the program asks for. -/
structure Invocation where
  /-- The script to run; without one, a console session is held. -/
  script : Option String := none
  /-- The settings file, in place of the search. -/
  settingsFile : Option String := none
  /-- The form of the recipe, in place of the one in the settings. -/
  format : Option ReportFormat := none
  /-- Whether to say more about what is going on. -/
  verbose : Bool := false
deriving DecidableEq, Repr

/-- What a command line asks for. -/
inductive Demand where
  | run (invocation : Invocation)
  | help
  | version
  /-- The command line cannot be understood. -/
  | unclear
deriving DecidableEq, Repr

namespace CommandLine

/-- The version of the program. -/
def versionText : String := "recipelang 0.1.0\n"

/-- A summary of the command line. -/
def summary : String :=
  "\n".intercalate
    ["RecipeLang recipe interpreter",
      "",
      "Usage: recipelang [OPTIONS] [FILE]",
      "",
      "Arguments:",
      "  [FILE]  Recipe script to execute. Starts interactive mode when omitted",
      "",
      "Options:",
      "      --config <CONFIG>  Config file (defaults to $RECIPELANG_CONFIG, ./recipelang.yaml or ~/.recipelang/config.yaml)",
      "      --format <FORMAT>  How the finished recipe is printed [possible values: text, json]",
      "  -v, --verbose          Log debug output to stderr",
      "  -h, --help             Print help",
      "  -V, --version          Print version",
      ""]

/-- Takes in the name of a script. -/
def setScript (i : Invocation) (path : String) : Option Invocation :=
  if i.script.isSome || path = "" then none else some { i with script := path }

/-- Takes in the path of a settings file. -/
def setSettingsFile (i : Invocation) (path : String) : Option Invocation :=
  if i.settingsFile.isSome || path = "" then none else some { i with settingsFile := path }

/-- Takes in the form of the recipe. -/
def setFormat (i : Invocation) (word : String) : Option Invocation :=
  if i.format.isSome then none
  else (Vocabulary.ofName? word).map fun format => { i with format := some format }

/-- Takes in the wish to hear more. -/
def setVerbose (i : Invocation) : Option Invocation :=
  if i.verbose then none else some { i with verbose := true }

/-- Goes on after something was taken in, unless it could not be. -/
def andThen (taken : Option Invocation) (next : Invocation → Demand) : Demand :=
  match taken with
  | some i => next i
  | none => .unclear

/-- Reads arguments that are all names of scripts. -/
def readScripts (i : Invocation) : List String → Demand
  | [] => .run i
  | path :: args => andThen (setScript i path) fun i => readScripts i args

/-- Reads letters that were put together. -/
def readLetters (i : Invocation) (next : Invocation → Demand) : List Char → Demand
  | [] => next i
  | 'v' :: letters => andThen (setVerbose i) fun i => readLetters i next letters
  | 'h' :: _ => .help
  | 'V' :: _ => .version
  | _ => .unclear

/-- Whether an argument looks like an option. A single dash does not. -/
def looksLikeOption (arg : String) : Bool :=
  match arg.toList with
  | '-' :: _ :: _ => true
  | _ => false

/-- Reads an option by its name, with the value behind its equals sign if there is one. `next` reads what comes after it
and `nextValue` the same if the option takes the argument that follows for its value. -/
def readOption (i : Invocation) (next : Invocation → Demand)
    (nextValue : (String → Option Invocation) → Demand) (name : String) (value : Option String) : Demand :=
  match name, value with
  | "config", some path => andThen (setSettingsFile i path) next
  | "config", none => nextValue (setSettingsFile i)
  | "format", some word => andThen (setFormat i word) next
  | "format", none => nextValue (setFormat i)
  | "verbose", none => andThen (setVerbose i) next
  | "help", none => .help
  | "version", none => .version
  | _, _ => .unclear

/-- An option without its dashes, cut at the first equals sign. -/
def splitOption (cs : List Char) : String × Option String :=
  let name := cs.takeWhile (· ≠ '=')
  (String.ofList name, match cs.drop name.length with
    | [] => none
    | _ :: value => some (String.ofList value))

/-- Reads arguments. -/
def read (i : Invocation) : List String → Demand
  | [] => .run i
  | arg :: args =>
    match arg.toList with
    | ['-', '-'] => readScripts i args
    | '-' :: '-' :: option =>
      let (name, value) := splitOption option
      let nextValue (set : String → Option Invocation) : Demand :=
        match args with
        | [] => .unclear
        | value :: args =>
          if looksLikeOption value then .unclear else andThen (set value) fun i => read i args
      readOption i (fun i => read i args) nextValue name value
    | '-' :: letter :: letters => readLetters i (fun i => read i args) (letter :: letters)
    | _ => andThen (setScript i arg) fun i => read i args

/-- What a command line asks for. -/
def demand (args : List String) : Demand :=
  read {} args

end CommandLine

end RecipeScript
