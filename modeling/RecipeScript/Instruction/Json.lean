import RecipeScript.Instruction
import RecipeScript.Json.Decode
import RecipeScript.Json.Printer

/-!
# Instructions and steps as JSON

An instruction is an object whose member `kind` says which of the two patterns it follows; the other members are the
slots of that pattern. A step is the same object with one more member, `number`. Writing puts `number` first, then
`kind`, then the slots from left to right.

Reading takes the members in any order and ignores those it does not know, the slots of the other pattern included. As
`kind` may come last, the slots are held until it is known. An instruction may also be a list, with the kind in front
and the slots after it; inside a step, a kind may also be given by its number.
-/

namespace RecipeScript

/-- The two patterns, as data. -/
inductive InstructionKind where
  | mixing | timed
deriving DecidableEq, Repr

instance : Vocabulary InstructionKind where
  all := [.mixing, .timed]
  name
    | .mixing => "mixing"
    | .timed => "timed"
  mem_all a := by cases a <;> decide
  name_inj a b := by cases a <;> cases b <;> decide

namespace Instruction

/-! ## Writing -/

/-- A word as a JSON string. -/
def wordJson {α : Type} [Vocabulary α] (a : α) : Json :=
  Json.ofText (Vocabulary.name a)

/-- The members of an instruction. -/
def members : Instruction → List (String × Json)
  | mixing action first second =>
    [("kind", wordJson InstructionKind.mixing), ("action", wordJson action),
      ("first", wordJson first), ("second", wordJson second)]
  | timed action duration unit =>
    [("kind", wordJson InstructionKind.timed), ("action", wordJson action),
      ("duration", Json.ofText duration.digits), ("unit", wordJson unit)]

/-- An instruction as JSON. -/
def toJson (i : Instruction) : Json :=
  Json.ofMembers i.members

/-! ## Reading the slots -/

/-- Decodes a duration in passing. -/
def decodeDuration (value : Json) : Decoded Duration := do
  let text ← value.decodeText
  match Duration.ofWord? text with
  | some duration => return duration
  | none => throw (.notWholeNumber text)

/-- The slots of a mixing instruction that have been met. -/
structure MixingSlots where
  action : Option Action := none
  first : Option Ingredient := none
  second : Option Ingredient := none

/-- Takes in one member. -/
def MixingSlots.put (slots : MixingSlots) (member : List StringPiece × Json) : Decoded MixingSlots := do
  let (name, value) := member
  match ← Json.textOf name with
  | "action" => return { slots with action := ← Json.fill "action" slots.action value.decodeHeldWord }
  | "first" => return { slots with first := ← Json.fill "first" slots.first value.decodeHeldWord }
  | "second" => return { slots with second := ← Json.fill "second" slots.second value.decodeHeldWord }
  | _ => return slots

/-- The instruction, if all its slots have been met. -/
def MixingSlots.finish (slots : MixingSlots) : Decoded Instruction := do
  return mixing (← Json.demand "action" slots.action) (← Json.demand "first" slots.first)
    (← Json.demand "second" slots.second)

/-- The slots of a timed instruction that have been met. -/
structure TimedSlots where
  action : Option Action := none
  duration : Option Duration := none
  unit : Option TimeUnit := none

/-- Takes in one member. -/
def TimedSlots.put (slots : TimedSlots) (member : List StringPiece × Json) : Decoded TimedSlots := do
  let (name, value) := member
  match ← Json.textOf name with
  | "action" => return { slots with action := ← Json.fill "action" slots.action value.decodeHeldWord }
  | "duration" => return { slots with duration := ← Json.fill "duration" slots.duration (decodeDuration value) }
  | "unit" => return { slots with unit := ← Json.fill "unit" slots.unit value.decodeHeldWord }
  | _ => return slots

/-- The instruction, if all its slots have been met. -/
def TimedSlots.finish (slots : TimedSlots) : Decoded Instruction := do
  return timed (← Json.demand "action" slots.action) (← Json.demand "duration" slots.duration)
    (← Json.demand "unit" slots.unit)

/-- Decodes the slots of a pattern from members that were held. -/
def ofHeldMembers (kind : InstructionKind) (held : List (List StringPiece × Json)) : Decoded Instruction :=
  match kind with
  | .mixing => do (← held.foldlM MixingSlots.put {}).finish
  | .timed => do (← held.foldlM TimedSlots.put {}).finish

/-- The next of the items that were held. -/
def nextItem : List Json → Decoded (Json × List Json)
  | [] => .error .wrongLength
  | item :: items => .ok (item, items)

/-- Demands that no item is left. -/
def demandNoItem : List Json → Decoded Unit
  | [] => .ok ()
  | _ :: _ => .error .wrongLength

/-- Decodes the slots of a pattern from items that were held. -/
def ofHeldItems (kind : InstructionKind) (items : List Json) : Decoded Instruction := do
  let (item, items) ← nextItem items
  let action ← item.decodeHeldWord
  match kind with
  | .mixing =>
    let (item, items) ← nextItem items
    let first ← item.decodeHeldWord
    let (item, items) ← nextItem items
    let second ← item.decodeHeldWord
    demandNoItem items
    return mixing action first second
  | .timed =>
    let (item, items) ← nextItem items
    let duration ← decodeDuration item
    let (item, items) ← nextItem items
    let unit ← item.decodeHeldWord
    demandNoItem items
    return timed action duration unit

/-! ## Reading instructions -/

/-- Decodes the kind of an instruction, which has to be a string. -/
def decodeKind (value : Json) : Decoded InstructionKind := do
  Json.lookUp (← value.decodeText)

/-- Decodes an instruction. -/
def ofJson : Json → Decoded Instruction
  | .object members closed => do
    let (kind, held) ← Json.takeMember "kind" decodeKind false members
    Json.demandClosed closed
    ofHeldMembers (← Json.demand "kind" kind) held
  | .array [] _ => .error (.missingField "kind")
  | .array (kind :: items) closed => do
    let kind ← decodeKind kind
    let items ← items.mapM Json.hold
    Json.demandClosed closed
    ofHeldItems kind items
  | value => .error value.mismatch

end Instruction

namespace Step

/-- A step as JSON. -/
def toJson (s : Step) : Json :=
  Json.ofMembers (("number", Json.ofNat s.number) :: s.instruction.members)

/-- Decodes the kind of an instruction that was held: a string, or the number of a kind. -/
def decodeHeldKind : Json → Decoded InstructionKind
  | .string pieces => do Json.lookUp (← Json.textOf pieces)
  | .number numeral =>
    match numeral.natural? with
    | some 0 => .ok .mixing
    | some 1 => .ok .timed
    | some _ => .error .wrongValue
    | none => .error .wrongType
  | _ => .error .wrongType

/-- Decodes a step, which has to be an object. -/
def ofJson : Json → Decoded Step
  | .object members closed => do
    let (number, held) ← Json.takeMember "number" Json.decodeNat false members
    Json.demandClosed closed
    let number ← Json.demand "number" number
    let (kind, held) ← Json.takeMember "kind" decodeHeldKind false held
    let instruction ← Instruction.ofHeldMembers (← Json.demand "kind" kind) held
    return ⟨number, instruction⟩
  | value => .error value.mismatch

end Step

end RecipeScript
