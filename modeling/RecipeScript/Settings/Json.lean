import RecipeScript.Json.Decode
import RecipeScript.Json.Printer
import RecipeScript.Settings

/-!
# Settings as JSON

Settings are written as an object with a member for each section, and each section as an object with a member for each of
its fields, in order of declaration. Reading is an overlay on the defaults: a section or a field that is missing keeps its
default, one that is not known is skipped, and one that comes twice is refused. Members may come in any order.

A section, and the settings as a whole, may also be a list of their fields in order of declaration, the last of which may
be missing.

Both rules are stated once, for any record whose fields are given by a list of `Field`s.
-/

namespace RecipeScript

/-- A field of a record: its name, and how its value is read into the record. -/
structure Field (ρ : Type) where
  name : String
  read : Json → ρ → Decoded ρ

namespace Field

variable {ρ : Type}

/-- Reads members over a record. `met` holds the names of the known fields met so far. A member that is skipped is not
looked into, but the text must not break inside it. -/
def readMembers (fields : List (Field ρ)) (met : List String) (record : ρ) :
    List (List StringPiece × Json) → Decoded ρ
  | [] => .ok record
  | (name, value) :: members => do
    let name ← Json.textOf name
    match fields.find? (·.name = name) with
    | none => if value.isBroken then throw .malformed else readMembers fields met record members
    | some field =>
      if name ∈ met then throw (.duplicateField name)
      let record ← field.read value record
      readMembers fields (name :: met) record members

/-- Reads items over a record, field by field. There may be fewer items than fields, but not more. -/
def readItems : List (Field ρ) → ρ → List Json → Decoded ρ
  | _, record, [] => .ok record
  | [], _, _ :: _ => .error .malformed
  | field :: fields, record, item :: items => do readItems fields (← field.read item record) items

/-- Reads a whole record over its defaults. -/
def readRecord (fields : List (Field ρ)) (defaults : ρ) : Json → Decoded ρ
  | .object members closed => do
    let record ← readMembers fields [] defaults members
    Json.demandClosed closed
    return record
  | .array items closed => do
    let record ← readItems fields defaults items
    Json.demandClosed closed
    return record
  | value => .error value.mismatch

end Field

/-- The fields of the section on console sessions. -/
def ReplSettings.fields : List (Field ReplSettings) :=
  [⟨"prompt", fun value s => return { s with prompt := ← value.decodeText }⟩,
    ⟨"show_banner", fun value s => return { s with showBanner := ← value.decodeBool }⟩,
    ⟨"handle_ctrl_c", fun value s => return { s with handleCtrlC := ← value.decodeBool }⟩]

/-- The fields of the section on scripts. -/
def BatchSettings.fields : List (Field BatchSettings) :=
  [⟨"stop_on_error", fun value s => return { s with stopOnError := ← value.decodeBool }⟩]

/-- The fields of the section on output. -/
def OutputSettings.fields : List (Field OutputSettings) :=
  [⟨"format", fun value s => return { s with format := ← value.decodeWord }⟩]

namespace Settings

/-- The sections. -/
def fields : List (Field Settings) :=
  [⟨"repl", fun value s => return { s with repl := ← Field.readRecord ReplSettings.fields {} value }⟩,
    ⟨"batch", fun value s => return { s with batch := ← Field.readRecord BatchSettings.fields {} value }⟩,
    ⟨"output", fun value s => return { s with output := ← Field.readRecord OutputSettings.fields {} value }⟩]

/-- Decodes settings. -/
def ofJson : Json → Decoded Settings :=
  Field.readRecord fields {}

/-- Settings as JSON. -/
def toJson (s : Settings) : Json :=
  Json.ofMembers
    [("repl", Json.ofMembers
        [("prompt", Json.ofText s.repl.prompt), ("show_banner", .bool s.repl.showBanner),
          ("handle_ctrl_c", .bool s.repl.handleCtrlC)]),
      ("batch", Json.ofMembers [("stop_on_error", .bool s.batch.stopOnError)]),
      ("output", Json.ofMembers [("format", Json.ofText (Vocabulary.name s.output.format))])]

end Settings

end RecipeScript
