import RecipeScript.Files
import RecipeScript.Settings.Yaml
import RecipeScript.Text.Lines

/-!
# Settings files

Where settings come from. A file that is named by its path has to be there and to hold settings. If none is named there is
a search: a file in the working directory goes before one in the home directory, and without either everything keeps its
default. The environment may name a file in place of the search, and then that file has to be there too, even if the name
is empty. The search stops at the first path that leads anywhere; what is found there is loaded, and that may fail.

A file in which every line is blank or a comment sets nothing, and is not read as YAML at all.
-/

namespace RecipeScript

/-- Why settings cannot be loaded. -/
inductive SettingsFault where
  /-- The file cannot be read. -/
  | unreadable (path : String) (cause : ReadFault)
  /-- The file does not hold settings. -/
  | malformed (path : String)
deriving DecidableEq, Repr

/-- The fault in words, if it can be told: about a file that does not hold settings no more is known than that. -/
def SettingsFault.message? : SettingsFault → Option String
  | unreadable path cause => some ("Failed to read config file " ++ path ++ ": " ++ cause.message)
  | malformed _ => none

/-- What the search for settings has to know of the world around the program. -/
structure Environment where
  /-- The variables that are set. -/
  bindings : List (String × String)
  /-- The home directory that the account has, if no variable says otherwise. -/
  accountHome : Option String := none

namespace Environment

/-- The value of a variable. -/
def get? (env : Environment) (name : String) : Option String :=
  env.bindings.lookup name

/-- The home directory. An empty variable is as good as none. -/
def home? (env : Environment) : Option String :=
  match env.get? "HOME" with
  | some home => if home = "" then env.accountHome else some home
  | none => env.accountHome

end Environment

/-- A path below another one. -/
def joinPath (directory name : String) : String :=
  if directory = "" || directory.toList.getLast? = some '/' then directory ++ name else directory ++ "/" ++ name

namespace Settings

/-- The settings in the text of a file. -/
def ofText? (text : String) : Option Settings :=
  if (linesOf text).all isBlankOrComment then some {} else ofYaml? text

/-- Loads settings from a path. -/
def load (files : Files) (path : String) : Except SettingsFault Settings :=
  match files.readText path with
  | .error cause => .error (.unreadable path cause)
  | .ok text => match ofText? text with
    | some settings => .ok settings
    | none => .error (.malformed path)

/-- The variable that names a file in place of the search. -/
def fileVariable : String := "RECIPELANG_CONFIG"

/-- The paths at which settings may be found, in the order of the search. -/
def searchPaths (env : Environment) : List String :=
  match env.get? fileVariable with
  | some path => [path]
  | none =>
    "recipelang.yaml" :: match env.home? with
      | some home => [joinPath (joinPath home ".recipelang") "config.yaml"]
      | none => []

/-- Finds and loads settings. -/
def loadDefault (files : Files) (env : Environment) : Except SettingsFault Settings :=
  match env.get? fileVariable with
  | some path => load files path
  | none => match (searchPaths env).find? files.isThere with
    | some path => load files path
    | none => .ok {}

end Settings

end RecipeScript
