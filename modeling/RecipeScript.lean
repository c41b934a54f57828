import RecipeScript.Main
import RecipeScript.Settings.Json
import RecipeScript.Proofs.Blanks
import RecipeScript.Proofs.CaseTables
import RecipeScript.Proofs.Casing
import RecipeScript.Proofs.Recognition
import RecipeScript.Proofs.Encoding
import RecipeScript.Proofs.Exchange
import RecipeScript.Proofs.ScriptRun
import RecipeScript.Proofs.ConsoleRun
import RecipeScript.Proofs.Conversation
import RecipeScript.Proofs.History
import RecipeScript.Proofs.Agreement
import RecipeScript.Proofs.BatchRun
import RecipeScript.Proofs.Replay
import RecipeScript.Proofs.JsonTokens
import RecipeScript.Proofs.JsonLayout
import RecipeScript.Proofs.JsonFields
import RecipeScript.Proofs.InstructionJson
import RecipeScript.Proofs.JsonRoundTrip
import RecipeScript.Proofs.Spacing
import RecipeScript.Proofs.JsonPretty
import RecipeScript.Proofs.JsonReport
import RecipeScript.Proofs.JsonWhole
import RecipeScript.Proofs.Arguments
import RecipeScript.Proofs.ProgramRun
import RecipeScript.Proofs.YamlCursor
import RecipeScript.Proofs.YamlQuiet
import RecipeScript.Proofs.YamlMarks
import RecipeScript.Proofs.YamlNames
import RecipeScript.Proofs.YamlInvariant
import RecipeScript.Proofs.YamlLexer
import RecipeScript.Proofs.YamlParser
import RecipeScript.Proofs.YamlDocument
import RecipeScript.Proofs.CommentOnly
import RecipeScript.Proofs.Alphabetical
import RecipeScript.Proofs.BrokenRules
import RecipeScript.Proofs.Mending
import RecipeScript.Proofs.ScriptTurns
import RecipeScript.Proofs.Halting
import RecipeScript.Proofs.ScriptParts
import RecipeScript.Proofs.ConsoleParts
import RecipeScript.Proofs.Ingredients
import RecipeScript.Proofs.Interruption
import RecipeScript.Proofs.Copies
import RecipeScript.Proofs.DecodedInstructions
import RecipeScript.Proofs.NormalForm
import RecipeScript.Proofs.Silence
import RecipeScript.Proofs.Dispatch
import RecipeScript.Proofs.Overlay
import RecipeScript.Proofs.SettingsOverlay
import RecipeScript.Proofs.FileTrees
import RecipeScript.Proofs.SettingsLoading
import RecipeScript.Proofs.SettingsSearch
import RecipeScript.Proofs.Dependence
