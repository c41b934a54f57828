import RecipeScript.Proofs.InstructionJson
import RecipeScript.Proofs.Sentences

/-!
# What is decoded can be said

JSON is a second way into a recipe, beside the lines of the language, and has several forms of its own:
objects with their members in any order, lists, kinds given by their number. Whatever the form, an
instruction that is decoded is one that a line could have given: its sentence is a command for it.

What has to be shown for this is where a duration comes from. `slotValues` is what a text has in a slot,
in an object by the name of the slot and in a list by its place. Of a timed instruction the slot of the
duration holds one value, and this says the digits of the duration (`HasSlots`). So a text that is about a
timed instruction and whose duration is no whole number is refused, in every form.
-/

namespace RecipeScript

open Json

/-- The values that stand in a slot: in an object those under its name, in a list the one in its place. -/
def Json.slotValues (name : String) (place : Nat) : Json → List Json
  | .object members _ => valuesOf name members
  | .array items _ => items[place]?.toList
  | _ => []

/-- A value says one text at most. -/
theorem Json.SaysText.unique {text other : String} {value : Json} (h : SaysText text value)
    (hother : SaysText other value) : text = other := by
  have hdecoded := decodeText_eq_ok_iff.mpr h
  rw [decodeText_eq_ok_iff.mpr hother] at hdecoded
  exact (Except.ok.inj hdecoded).symm

/-- A value says a kind, by its name or by its number. -/
def Json.SaysKind (kind : InstructionKind) (value : Json) : Prop :=
  SaysText (Vocabulary.name kind) value ∨ SaysNat kind.index value

/-- A value says one kind at most, in whichever way. -/
theorem Json.SaysKind.unique {kind other : InstructionKind} {value : Json} (h : SaysKind kind value)
    (hother : SaysKind other value) : kind = other := by
  have hdecoded := Step.decodeHeldKind_eq_ok_iff.mpr h
  rw [Step.decodeHeldKind_eq_ok_iff.mpr hother] at hdecoded
  exact (Except.ok.inj hdecoded).symm

namespace Instruction

/-- The duration of a timed instruction. -/
def duration? : Instruction → Option Duration
  | mixing _ _ _ => none
  | timed _ duration _ => some duration

theorem exists_duration_of_kind {i : Instruction} (h : i.kind = .timed) : ∃ d, i.duration? = some d := by
  cases i with
  | mixing action first second => cases h
  | timed action duration unit => exact ⟨duration, rfl⟩

/-- A value has the kind of an instruction in one place, and its duration in another if there is one. -/
structure HasSlots (i : Instruction) (value : Json) : Prop where
  kind : ∃ v, slotValues "kind" 0 value = [v] ∧ SaysKind i.kind v
  duration : ∀ d, i.duration? = some d → ∃ v, slotValues "duration" 2 value = [v] ∧ SaysText d.digits v

/-! ## Lists -/

section Items

variable {item : Json} {items rest : List Json} {i : Instruction}

theorem nextItem_eq_ok_iff : nextItem items = .ok (item, rest) ↔ items = item :: rest := by
  cases items with
  | nil => exact ⟨(nomatch ·), (nomatch ·)⟩
  | cons first items => rw [nextItem, Except.ok.injEq, Prod.mk.injEq, List.cons.injEq]

/-- Items that are held are held as they are. -/
theorem eq_of_mapM_hold {held : List Json} (h : items.mapM hold = .ok held) : held = items := by
  induction items generalizing held with
  | nil =>
      cases h
      rfl
  | cons item items ih =>
      rw [List.mapM_cons] at h
      obtain ⟨_, hitem, h⟩ := Json.bind_eq_ok_iff.mp h
      obtain ⟨_, hitems, h⟩ := Json.bind_eq_ok_iff.mp h
      cases h
      rw [(hold_eq_ok_iff.mp hitem).1, ih hitems]

/-- The slots of a list follow on one another, and the duration is the second of them. -/
theorem slots_of_ofHeldItems {pattern : InstructionKind} (h : ofHeldItems pattern items = .ok i) :
    i.kind = pattern ∧ ∀ d, i.duration? = some d → ∃ v, items[1]? = some v ∧ SaysText d.digits v := by
  obtain ⟨⟨_, rest⟩, hfirst, hrest⟩ := Json.bind_eq_ok_iff.mp h
  obtain ⟨action, -, hrest⟩ := Json.bind_eq_ok_iff.mp hrest
  cases pattern with
  | mixing =>
      obtain ⟨⟨_, _⟩, -, hrest⟩ := Json.bind_eq_ok_iff.mp hrest
      obtain ⟨first, -, hrest⟩ := Json.bind_eq_ok_iff.mp hrest
      obtain ⟨⟨_, _⟩, -, hrest⟩ := Json.bind_eq_ok_iff.mp hrest
      obtain ⟨second, -, hrest⟩ := Json.bind_eq_ok_iff.mp hrest
      obtain ⟨_, -, hrest⟩ := Json.bind_eq_ok_iff.mp hrest
      cases hrest
      exact ⟨rfl, fun d hd => nomatch hd⟩
  | timed =>
      obtain ⟨⟨value, _⟩, hsecond, hrest⟩ := Json.bind_eq_ok_iff.mp hrest
      obtain ⟨duration, hduration, hrest⟩ := Json.bind_eq_ok_iff.mp hrest
      obtain ⟨⟨_, _⟩, -, hrest⟩ := Json.bind_eq_ok_iff.mp hrest
      obtain ⟨unit, -, hrest⟩ := Json.bind_eq_ok_iff.mp hrest
      obtain ⟨_, -, hrest⟩ := Json.bind_eq_ok_iff.mp hrest
      cases hrest
      rw [nextItem_eq_ok_iff.mp hfirst, nextItem_eq_ok_iff.mp hsecond]
      refine ⟨rfl, fun d hd => ⟨value, rfl, ?_⟩⟩
      rw [← Option.some.inj hd]
      exact decodeDuration_eq_ok_iff.mp hduration

theorem hasSlots_of_array {closed : Bool} (h : ofJson (.array items closed) = .ok i) :
    i.HasSlots (.array items closed) := by
  cases items with
  | nil => cases h
  | cons value items =>
      obtain ⟨pattern, hkind, h⟩ := Json.bind_eq_ok_iff.mp h
      obtain ⟨held, hheld, h⟩ := Json.bind_eq_ok_iff.mp h
      obtain ⟨_, -, h⟩ := Json.bind_eq_ok_iff.mp h
      rw [eq_of_mapM_hold hheld] at h
      obtain ⟨rfl, hduration⟩ := slots_of_ofHeldItems h
      refine ⟨⟨value, rfl, Or.inl (decodeKind_eq_ok_iff.mp hkind)⟩, fun d hd => ?_⟩
      obtain ⟨v, hv, hdigits⟩ := hduration d hd
      refine ⟨v, ?_, hdigits⟩
      show (value :: items)[2]?.toList = [v]
      rw [List.getElem?_cons_succ, hv, Option.toList_some]

end Items

/-! ## Objects -/

section Objects

variable {members : List (List StringPiece × Json)} {value : Json}

theorem SlotsSay.duration {i : Instruction} (h : i.SlotsSay members) {d : Duration}
    (hd : i.duration? = some d) : ∃ v, valuesOf "duration" members = [v] ∧ SaysText d.digits v := by
  cases i with
  | mixing action first second => cases hd
  | timed action duration unit =>
      obtain rfl := Option.some.inj hd
      exact h.2.1

theorem hasSlots_of_ofJson {i : Instruction} (h : ofJson value = .ok i) : i.HasSlots value := by
  cases value with
  | object members closed =>
      obtain ⟨⟨v, hv, hkind⟩, hslots⟩ := isSaidBy_of_ofJson h
      exact ⟨⟨v, hv, Or.inl hkind⟩, fun _ hd => hslots.duration hd⟩
  | array items closed => exact hasSlots_of_array h
  | null => cases h
  | bool b => cases h
  | number n => cases h
  | string pieces => cases h
  | fault => cases h

theorem hasSlots_of_step {s : Step} (h : Step.ofJson value = .ok s) : s.instruction.HasSlots value := by
  obtain ⟨members, rfl, -, hkind, hslots⟩ := Step.exists_isSaidBy_of_ofJson h
  exact ⟨hkind, fun _ hd => hslots.duration hd⟩

end Objects

/-! ## Durations -/

section Durations

variable {value : Json} {word : String}

/-- A value is about a timed instruction if something in the slot of the kind says so. -/
def IsTimed (value : Json) : Prop :=
  ∃ v ∈ slotValues "kind" 0 value, SaysKind .timed v

theorem HasSlots.kind_eq_timed {i : Instruction} (h : i.HasSlots value) (htimed : IsTimed value) :
    i.kind = .timed := by
  -- there is one value in the slot of the kind, so both are about that one
  obtain ⟨v, hv, hkind⟩ := h.kind
  obtain ⟨w, hw, htimed⟩ := htimed
  rw [hv, List.mem_singleton] at hw
  subst hw
  exact hkind.unique htimed

/-- A timed instruction has no duration but the one that stands there. -/
theorem HasSlots.isWholeNumber {i : Instruction} (h : i.HasSlots value) (htimed : IsTimed value)
    (hword : ∃ v ∈ slotValues "duration" 2 value, SaysText word v) : IsWholeNumber word := by
  obtain ⟨d, hd⟩ := exists_duration_of_kind (h.kind_eq_timed htimed)
  obtain ⟨v, hv, hdigits⟩ := h.duration d hd
  obtain ⟨w, hw, hword⟩ := hword
  rw [hv, List.mem_singleton] at hw
  subst hw
  rw [hword.unique hdigits]
  exact d.isWholeNumber

theorem error_of_not_ok {α : Type} {decoded : Decoded α} (h : ∀ a, decoded ≠ .ok a) :
    ∃ fault, decoded = .error fault := by
  cases decoded with
  | ok a => exact absurd rfl (h a)
  | error fault => exact ⟨fault, rfl⟩

theorem decodeDuration_of_not (hstated : SaysText word value) (h : ¬ IsWholeNumber word) :
    decodeDuration value = .error (.notWholeNumber word) := by
  have hnone : Duration.ofWord? word = none := dif_neg h
  unfold decodeDuration
  rw [decodeText_eq_ok_iff.mpr hstated, ok_bind, hnone]
  rfl

end Durations

/-- An instruction that a line gives as well. If it is timed, its duration is digits only, and is what a
value has in the slot of the duration. -/
structure CanBeSaid (i : Instruction) (value : Json) : Prop where
  said : ofLine i.sentence = .ok (some i)
  duration : ∀ d, i.duration? = some d → IsWholeNumber d.digits
    ∧ ∃ v, slotValues "duration" 2 value = [v] ∧ SaysText d.digits v

theorem HasSlots.canBeSaid {i : Instruction} {value : Json} (h : i.HasSlots value) : i.CanBeSaid value where
  said := i.ofLine_sentence
  duration d hd := ⟨d.isWholeNumber, h.duration d hd⟩

/--
**What is decoded can be said.** Whatever text is decoded as an instruction or as a step, the sentence of
the instruction is a command that gives it, and its duration is digits only. A text that is about a timed
instruction and has any other text for its duration is decoded as neither, and such a text is no duration
on its own either.
-/
theorem decoded_can_be_said (text : String) :
    let value := (read text).1
    (∀ i, decodeWhole ofJson text = .ok i → i.CanBeSaid value)
      ∧ (∀ s, decodeWhole Step.ofJson text = .ok s → s.instruction.CanBeSaid value)
      ∧ ∀ word, ¬ IsWholeNumber word →
        (IsTimed value → (∃ v ∈ slotValues "duration" 2 value, SaysText word v) →
          (∃ fault, decodeWhole ofJson text = .error fault)
            ∧ ∃ fault, decodeWhole Step.ofJson text = .error fault)
        ∧ (SaysText word value → decodeWhole decodeDuration text = .error (.notWholeNumber word)) := by
  intro value
  refine ⟨fun i hi => ?_, fun s hs => ?_, fun word hnot => ⟨fun htimed hword => ?_, fun hstated => ?_⟩⟩
  · exact (hasSlots_of_ofJson (decode_of_decodeWhole hi)).canBeSaid
  · exact (hasSlots_of_step (decode_of_decodeWhole hs)).canBeSaid
  · constructor
    · refine error_of_not_ok fun i hi => hnot ?_
      exact (hasSlots_of_ofJson (decode_of_decodeWhole hi)).isWholeNumber htimed hword
    · refine error_of_not_ok fun s hs => hnot ?_
      exact (hasSlots_of_step (decode_of_decodeWhole hs)).isWholeNumber htimed hword
  · have hvalue : decodeDuration value = .error (.notWholeNumber word) := decodeDuration_of_not hstated hnot
    unfold decodeWhole
    dsimp only
    rw [hvalue]
    rfl

/-- A list that is decoded, and the same list with a sign in front of the digits. -/
theorem timed_list_can_be_said :
    let listed := fun digits => ofList [ofText "timed", ofText "bake", ofText digits, ofText "hours"]
    let i : Instruction := timed .bake ⟨"007", by decide⟩ .hours
    (decodeWhole ofJson (listed "007").toCompactText = .ok i ∧ i.CanBeSaid (listed "007"))
      ∧ ¬ IsWholeNumber "-7" ∧ IsTimed (listed "-7")
      ∧ (∃ v ∈ slotValues "duration" 2 (listed "-7"), SaysText "-7" v)
      ∧ ∃ fault, decodeWhole ofJson (listed "-7").toCompactText = .error fault := by
  intro listed i
  have hread : ∀ digits, read (listed digits).toCompactText = (listed digits, true) := by
    intro digits
    refine IsPrintable.read_toCompactText (.array ?_)
    simp only [List.forall_mem_cons]
    exact ⟨isPrintable_ofText _, isPrintable_ofText _, isPrintable_ofText _, isPrintable_ofText _, by simp⟩
  have hdecoded : decodeWhole ofJson (listed "007").toCompactText = .ok i := by decide +kernel
  have htimed : IsTimed (listed "-7") := ⟨_, List.mem_singleton_self _, Or.inl (saysText_ofText "timed")⟩
  have hdigits : ∃ v ∈ slotValues "duration" 2 (listed "-7"), SaysText "-7" v :=
    ⟨_, List.mem_singleton_self _, saysText_ofText "-7"⟩
  obtain ⟨hsaid, -, -⟩ := decoded_can_be_said (listed "007").toCompactText
  obtain ⟨-, -, hrefused⟩ := decoded_can_be_said (listed "-7").toCompactText
  rw [hread] at hsaid hrefused
  exact ⟨⟨hdecoded, hsaid i hdecoded⟩, by decide, htimed, hdigits,
    ((hrefused "-7" (by decide)).1 htimed hdigits).1⟩

end Instruction

end RecipeScript
