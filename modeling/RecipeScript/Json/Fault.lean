import RecipeScript.Text.Digits

/-!
# Faults in writing JSON

What goes wrong while JSON is written is told by a reason and, if it is about some place in a text, by the line and the
column of that place, both counted from one. In words the place comes last, as in `reason at line 3 column 14`.

A fault is passed on in words, so it has to be found again in a text. Any text is the reason of a fault; but if a place
stands at its end, it is read off. The numbers of the place have to be below 2⁶⁴. If several places stand at the end,
only the last is one and the others belong to the reason. The line zero means that there is no place, so a place there
is dropped.
-/

namespace RecipeScript

/-- A place in a text, counted from one. -/
structure TextPlace where
  line : Nat
  column : Nat
deriving DecidableEq, Repr

/-- What goes wrong while JSON is written. -/
structure WritingFault where
  reason : String
  /-- The place that the fault is about. -/
  place : Option TextPlace
deriving DecidableEq, Repr

namespace TextPlace

/-- The place in words. -/
def message (p : TextPlace) : String :=
  " at line " ++ toString p.line ++ " column " ++ toString p.column

/-- What stands in front of the number of the line. -/
def lineMark : List Char := " at line ".toList

/-- What stands between the two numbers. -/
def columnMark : List Char := " column ".toList

/-- The number that a text of digits spells, if it is below 2⁶⁴. -/
def number? (digits : List Char) : Option Nat :=
  if digits ≠ [] && digits.all Char.isDigit && decimalValue digits < Nat.pow 2 64 then some (decimalValue digits) else none

/-- The place that a text spells after the mark of the line. -/
def ofNumbers? (cs : List Char) : Option TextPlace := do
  let line := cs.takeWhile Char.isDigit
  let rest := cs.drop line.length
  if !columnMark.isPrefixOf rest then none
  return ⟨← number? line, ← number? (rest.drop columnMark.length)⟩

end TextPlace

namespace WritingFault

/-- The fault in words. -/
def message (f : WritingFault) : String :=
  f.reason ++ (f.place.map TextPlace.message).getD ""

/-- What comes before the last mark of a line, and what comes after it. -/
def cutAtPlace? : List Char → Option (List Char × List Char)
  | [] => none
  | c :: cs =>
    match cutAtPlace? cs with
    | some (before, after) => some (c :: before, after)
    | none =>
      if TextPlace.lineMark.isPrefixOf (c :: cs) then some ([], (c :: cs).drop TextPlace.lineMark.length) else none

/-- The fault that a text tells of. -/
def ofText (text : String) : WritingFault :=
  match cutAtPlace? text.toList with
  | none => ⟨text, none⟩
  | some (before, after) =>
    match TextPlace.ofNumbers? after with
    | none => ⟨text, none⟩
    | some place => ⟨String.ofList before, if place.line = 0 then none else some place⟩

end WritingFault

end RecipeScript
