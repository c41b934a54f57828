import RecipeScript.Text.Blank

/-!
# Lines

A line ends at a line feed, and a carriage return right before that line feed belongs to the line's end. What comes
after the last line feed is an unfinished line: it counts as a line when it holds anything at all, and a carriage
return at its end is then part of it.

The rule is the same for characters, as in a script, and for bytes, as in standard input, so it is stated once over
any type of symbols. The unfinished line is kept apart from the finished ones, because a reader that is interrupted
never sees it.
-/

namespace RecipeScript

/-- A text cut into lines. -/
structure Lines (α : Type) where
  /-- The lines that a line feed ends, without their ends. -/
  finished : List (List α)
  /-- What comes after the last line feed. -/
  unfinished : List α

namespace Lines

variable {α : Type} [DecidableEq α]

/-- A line without the carriage return at its end, if it has one. -/
def dropReturn (cr : α) (line : List α) : List α :=
  if line.getLast? = some cr then line.dropLast else line

/-- Cuts a text at its line feeds. -/
def cut (lf cr : α) (text : List α) : Lines α :=
  let pieces := splitOn (· == lf) text
  ⟨pieces.dropLast.map (dropReturn cr), pieces.getLast?.getD []⟩

/-- All lines, the unfinished one included unless it is empty. -/
def all (l : Lines α) : List (List α) :=
  if l.unfinished.isEmpty then l.finished else l.finished ++ [l.unfinished]

end Lines

/-- The lines of a text. -/
def linesOf (text : String) : List String :=
  (Lines.cut '\n' '\r' text.toList).all.map String.ofList

end RecipeScript
