import RecipeScript.Settings
import RecipeScript.Text.Utf8
import RecipeScript.Yaml.Node

/-!
# Settings as YAML

A settings file is written in YAML. Its sections and fields are those of `Settings`, and as with JSON they overlay the
defaults: what is missing keeps its default, what is not known is skipped, and what comes twice is refused. Nothing at all,
in place of a section or of the whole, means that all of it keeps its default.

What a scalar means depends on what is wanted. A text is whatever is written, quoted or not. A truth value has to be plain,
and is one of six spellings. A word is a text too, unless the node has a tag of its own making: then the tag is the word,
and the node has to be empty.

As a settings file is only ever accepted or refused as a whole, all readers give `none` for whatever is wrong.
-/

namespace RecipeScript.Settings

open Yaml

/-- The text of a scalar. -/
def yamlText? : Node → Option String
  | .scalar _ _ _ text => some (String.ofList text)
  | _ => none

/-- The tag of truth values. -/
def boolTag : List UInt8 := Utf8.encode "tag:yaml.org,2002:bool"

/-- The truth value that a scalar stands for. A literal block is not plain, but may be tagged as one. -/
def yamlBool? : Node → Option Bool
  | .scalar _ tag style text =>
    if style = .plain || (style = .literal && tag = some boolTag) then
      match String.ofList text with
      | "true" | "True" | "TRUE" => some true
      | "false" | "False" | "FALSE" => some false
      | _ => none
    else none
  | _ => none

/-- Whether a node is empty, in one of the spellings for that. -/
def isYamlNull : Node → Bool
  | .scalar _ _ .plain text => ["", "~", "null", "Null", "NULL"].contains (String.ofList text)
  | _ => false

/-- The tag of a node. -/
def yamlTag : Node → Option (List UInt8)
  | .scalar _ tag _ _ => tag
  | .sequence _ tag _ => tag
  | .mapping _ tag _ => tag
  | .alias _ => none

/-- The word that the tag of a node spells, if it is a tag of its own making. -/
def tagWord? (node : Node) : Option String :=
  match yamlTag node with
  | some (0x21 :: word) => (Utf8.decode word).toOption
  | _ => none

/-- The word of a vocabulary that a node stands for. -/
def yamlWord? {α : Type} [Vocabulary α] (node : Node) : Option α :=
  match tagWord? node with
  | some word => if isYamlNull node then Vocabulary.ofName? word else none
  | none => do Vocabulary.ofName? (← yamlText? node)

/-- A field of a record: its name, and how the node of its value is read into the record. -/
structure YamlField (ρ : Type) where
  name : String
  read : Node → ρ → Option ρ

namespace YamlField

variable {ρ : Type}

/-- Reads members over a record. `met` holds the names of the known fields met so far. -/
def readMembers? (document : Node) (fields : List (YamlField ρ)) (met : List String) (record : ρ) :
    List (Node × Node) → Option ρ
  | [] => some record
  | (name, value) :: members => do
    let name ← yamlText? (← document.target? name)
    match fields.find? (·.name = name) with
    | none => readMembers? document fields met record members
    | some field =>
      if name ∈ met then none
      else
        let record ← field.read (← document.target? value) record
        readMembers? document fields (name :: met) record members

/-- Reads a record over its defaults, from a node that is no alias. -/
def readRecord? (document : Node) (fields : List (YamlField ρ)) (defaults : ρ) : Node → Option ρ
  | .mapping _ _ members => readMembers? document fields [] defaults members
  | .scalar _ _ .plain [] => some defaults
  | _ => none

end YamlField

/-- The fields of the section on console sessions. -/
def replYamlFields : List (YamlField ReplSettings) :=
  [⟨"prompt", fun node s => return { s with prompt := ← yamlText? node }⟩,
    ⟨"show_banner", fun node s => return { s with showBanner := ← yamlBool? node }⟩,
    ⟨"handle_ctrl_c", fun node s => return { s with handleCtrlC := ← yamlBool? node }⟩]

/-- The fields of the section on scripts. -/
def batchYamlFields : List (YamlField BatchSettings) :=
  [⟨"stop_on_error", fun node s => return { s with stopOnError := ← yamlBool? node }⟩]

/-- The fields of the section on output. -/
def outputYamlFields : List (YamlField OutputSettings) :=
  [⟨"format", fun node s => return { s with format := ← yamlWord? node }⟩]

/-- The sections. -/
def yamlFields (document : Node) : List (YamlField Settings) :=
  [⟨"repl", fun node s => return { s with repl := ← YamlField.readRecord? document replYamlFields {} node }⟩,
    ⟨"batch", fun node s => return { s with batch := ← YamlField.readRecord? document batchYamlFields {} node }⟩,
    ⟨"output", fun node s => return { s with output := ← YamlField.readRecord? document outputYamlFields {} node }⟩]

/-- The settings in a document. -/
def ofYamlDocument? (document : Node) : Option Settings := do
  YamlField.readRecord? document (yamlFields document) {} (← document.target? document)

/-- The settings in a YAML text. A text without any document leaves everything at its default. -/
def ofYaml? (text : String) : Option Settings := do
  match ← Node.ofText? text with
  | none => return {}
  | some document => ofYamlDocument? document

end RecipeScript.Settings
