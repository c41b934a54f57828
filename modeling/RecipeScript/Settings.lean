import RecipeScript.Recipe.Report

/-!
# Settings

What a user can set, in the three sections in which a settings file writes it. Everything has a default, so a file needs
to mention only what differs.
-/

namespace RecipeScript

/-- How a console session behaves. -/
structure ReplSettings where
  prompt : String := "RecipeLang> "
  /-- Whether a session starts with a banner. -/
  showBanner : Bool := true
  /-- Whether an interrupt ends a session with a farewell. -/
  handleCtrlC : Bool := true
deriving DecidableEq, Repr

/-- How a script is run. -/
structure BatchSettings where
  /-- Whether the first rejected line halts the run. -/
  stopOnError : Bool := true
deriving DecidableEq, Repr

/-- How a recipe is printed. -/
structure OutputSettings where
  format : ReportFormat := .text
deriving DecidableEq, Repr

/-- All settings. -/
structure Settings where
  repl : ReplSettings := {}
  batch : BatchSettings := {}
  output : OutputSettings := {}
deriving DecidableEq, Repr

end RecipeScript
