import RecipeScript.Files
import RecipeScript.Json.Fault

/-!
# Transcripts

What a run prints, in order. Messages and complaints are lines of their own; a prompt is not, since what the cook types
follows it. A run may also end with a fault of its own, one that is about the run and not about a line.
-/

namespace RecipeScript

/-- One thing that a run prints. -/
inductive Entry where
  | out (message : String)
  | err (message : String)
  | prompt (text : String)
deriving DecidableEq, Repr

/-- An entry as it appears on a terminal. -/
def Entry.shown : Entry → String
  | out message => message ++ "\n"
  | err message => message ++ "\n"
  | prompt text => text

/-- All that a run prints. -/
abbrev Transcript := List Entry

/-- A transcript as it appears on a terminal. -/
def Transcript.shown (transcript : Transcript) : String :=
  "".intercalate (transcript.map Entry.shown)

/-- Why a run ends without a result. -/
inductive RunFault where
  /-- There is no script at the path. -/
  | notFound (path : String)
  /-- There is something at the path, but it cannot be read as a script. -/
  | unreadable (path : String) (cause : ReadFault)
  /-- Standard input or output fails. -/
  | inputOutput (cause : String)
  /-- A recipe cannot be written out as JSON. -/
  | rendering (cause : WritingFault)
deriving DecidableEq, Repr

namespace RunFault

/-- The fault in words. -/
def message : RunFault → String
  | notFound path => "File '" ++ path ++ "' not found"
  | unreadable path cause => "Failed to read '" ++ path ++ "': " ++ cause.message
  | inputOutput cause => "IO error: " ++ cause
  | rendering cause => "Failed to render recipe: " ++ cause.message

/-- The fault as it is shown to the cook. -/
def announcement : RunFault → String
  | unreadable _ cause => "Error reading file: " ++ cause.message
  | fault => "Error: " ++ fault.message

/-- The fault of a script that cannot be read. -/
def ofRead (path : String) : ReadFault → RunFault
  | .notFound => notFound path
  | cause => unreadable path cause

end RunFault

end RecipeScript
