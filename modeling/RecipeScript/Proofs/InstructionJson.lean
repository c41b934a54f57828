import RecipeScript.Instruction.Json
import RecipeScript.Proofs.JsonFields
import RecipeScript.Proofs.JsonLayout

/-!
# Which objects are instructions and steps

An object is an instruction exactly if its kind and the slots of that kind occur once each and say what
stands in them; for a step there is a number besides. Nothing else in the object counts, and neither does
the order of its members.

Both decoders first walk over all members in passing, for the kind or for the number, and then fill the
slots from what they held, so both come down to the same `SlotsSay`.
-/

namespace RecipeScript

open Json

/-- The number of a kind, in order of declaration. -/
def InstructionKind.index : InstructionKind → Nat
  | .mixing => 0
  | .timed => 1

namespace Instruction

/-! ## Kinds and durations -/

section Values

variable {value : Json}

theorem decodeKind_eq_ok_iff {kind : InstructionKind} :
    decodeKind value = .ok kind ↔ SaysText (Vocabulary.name kind) value := by
  unfold decodeKind
  rw [bind_eq_ok_iff]
  constructor
  · intro h
    obtain ⟨text, htext, hkind⟩ := h
    rw [lookUp_eq_ok_iff] at hkind
    rw [← hkind]
    exact decodeText_eq_ok_iff.mp htext
  · intro h
    exact ⟨Vocabulary.name kind, decodeText_eq_ok_iff.mpr h, lookUp_eq_ok_iff.mpr rfl⟩

theorem decodeDuration_eq_ok_iff {d : Duration} : decodeDuration value = .ok d ↔ SaysText d.digits value := by
  unfold decodeDuration
  rw [bind_eq_ok_iff]
  constructor
  · intro h
    obtain ⟨text, htext, hduration⟩ := h
    split at hduration
    · rename_i d' hd
      cases hduration
      rw [← Duration.ofWord?_eq_some_iff.mp hd]
      exact decodeText_eq_ok_iff.mp htext
    · cases hduration
  · intro h
    refine ⟨d.digits, decodeText_eq_ok_iff.mpr h, ?_⟩
    rw [Duration.ofWord?_eq_some_iff.mpr rfl]
    rfl

end Values

/-! ## Slots -/

section Slots

variable {member : List StringPiece × Json} {held : List (List StringPiece × Json)}

/-- A member goes to the place of its name, or nowhere. -/
theorem MixingSlots.put_eq (action : Option Action) (first second : Option Ingredient)
    (hname : (textOfPieces? member.1).isSome = true) :
    put ⟨action, first, second⟩ member = (do
      let action ← putIn "action" decodeHeldWord action member
      let first ← putIn "first" decodeHeldWord first member
      let second ← putIn "second" decodeHeldWord second member
      return ⟨action, first, second⟩) := by
  obtain ⟨name, value⟩ := member
  obtain ⟨text, htext⟩ := exists_textOf hname
  have hnamed : ∀ field, IsNamed field (name, value) ↔ text = field := fun field => isNamed_iff htext
  unfold put putIn
  simp only [htext, hnamed, ok_bind]
  split
  · rfl
  · rfl
  · rfl
  · rename_i haction hfirst hsecond
    rw [if_neg haction, if_neg hfirst, if_neg hsecond]
    rfl

/-- A member goes to the place of its name, or nowhere. -/
theorem TimedSlots.put_eq (action : Option Action) (duration : Option Duration) (unit : Option TimeUnit)
    (hname : (textOfPieces? member.1).isSome = true) :
    put ⟨action, duration, unit⟩ member = (do
      let action ← putIn "action" decodeHeldWord action member
      let duration ← putIn "duration" decodeDuration duration member
      let unit ← putIn "unit" decodeHeldWord unit member
      return ⟨action, duration, unit⟩) := by
  obtain ⟨name, value⟩ := member
  obtain ⟨text, htext⟩ := exists_textOf hname
  have hnamed : ∀ field, IsNamed field (name, value) ↔ text = field := fun field => isNamed_iff htext
  unfold put putIn
  simp only [htext, hnamed, ok_bind]
  split
  · rfl
  · rfl
  · rfl
  · rename_i haction hduration hunit
    rw [if_neg haction, if_neg hduration, if_neg hunit]
    rfl

/-- The pattern that an instruction follows. -/
def kind : Instruction → InstructionKind
  | mixing _ _ _ => .mixing
  | timed _ _ _ => .timed

/-- Each slot of an instruction occurs exactly once, and says what stands in it. -/
def SlotsSay : Instruction → List (List StringPiece × Json) → Prop
  | mixing action first second, members =>
    Once "action" (SaysWord action) members ∧ Once "first" (SaysWord first) members ∧
      Once "second" (SaysWord second) members
  | timed action duration unit, members =>
    Once "action" (SaysWord action) members ∧ Once "duration" (SaysText duration.digits) members ∧
      Once "unit" (SaysWord unit) members

/-- **The slots of a pattern are found** exactly if they are those of an instruction that follows it. -/
theorem ofHeldMembers_eq_ok_iff {pattern : InstructionKind} {i : Instruction}
    (hnames : ∀ member ∈ held, (textOfPieces? member.1).isSome = true) :
    ofHeldMembers pattern held = .ok i ↔ i.kind = pattern ∧ i.SlotsSay held := by
  cases pattern with
  | mixing =>
      have hput := fun a b c member (h : member ∈ held) => MixingSlots.put_eq a b c (hnames member h)
      refine (foldlM_demand_eq_ok_iff hput fun _ _ _ => rfl).trans ?_
      simp only [decodeHeldWord_eq_ok_iff]
      constructor
      · intro h
        obtain ⟨action, first, second, rfl, hslots⟩ := h
        exact ⟨rfl, hslots⟩
      · intro h
        cases i with
        | mixing action first second => exact ⟨action, first, second, rfl, h.2⟩
        | timed action duration unit => cases h.1
  | timed =>
      have hput := fun a b c member (h : member ∈ held) => TimedSlots.put_eq a b c (hnames member h)
      refine (foldlM_demand_eq_ok_iff hput fun _ _ _ => rfl).trans ?_
      simp only [decodeHeldWord_eq_ok_iff, decodeDuration_eq_ok_iff]
      constructor
      · intro h
        obtain ⟨action, duration, unit, rfl, hslots⟩ := h
        exact ⟨rfl, hslots⟩
      · intro h
        cases i with
        | mixing action first second => cases h.1
        | timed action duration unit => exact ⟨action, duration, unit, rfl, h.2⟩

end Slots

/-- The names of all slots, of either pattern. -/
def slotNames : List String := ["action", "first", "second", "duration", "unit"]

/-- Only what stands under the names of slots bears on the slots. -/
theorem slotsSay_congr (i : Instruction) {members others : List (List StringPiece × Json)}
    (h : ∀ name ∈ slotNames, valuesOf name members = valuesOf name others) :
    i.SlotsSay members ↔ i.SlotsSay others := by
  cases i with
  | mixing action first second =>
      simp only [SlotsSay, Once, h "action" (by decide), h "first" (by decide), h "second" (by decide)]
  | timed action duration unit =>
      simp only [SlotsSay, Once, h "action" (by decide), h "duration" (by decide), h "unit" (by decide)]

theorem slotsSay_othersOf_iff (i : Instruction) {field : String} {members : List (List StringPiece × Json)}
    (h : field ∉ slotNames) : i.SlotsSay (othersOf field members) ↔ i.SlotsSay members :=
  i.slotsSay_congr fun _ hname => valuesOf_othersOf fun heq => h (heq ▸ hname)

/-- The names that count for an instruction. -/
def fieldNames : Instruction → List String
  | mixing _ _ _ => ["kind", "action", "first", "second"]
  | timed _ _ _ => ["kind", "action", "duration", "unit"]

theorem SlotsSay.of_perm {i : Instruction} {names : List String} {members others : List (List StringPiece × Json)}
    (h : i.SlotsSay members) (hnames : i.fieldNames ⊆ names)
    (hperm : (membersNamed names others).Perm (membersNamed names members)) : i.SlotsSay others := by
  cases i with
  | mixing action first second =>
      obtain ⟨haction, hfirst, hsecond⟩ := h
      exact ⟨haction.of_perm (hnames (by simp [fieldNames])) hperm,
        hfirst.of_perm (hnames (by simp [fieldNames])) hperm,
        hsecond.of_perm (hnames (by simp [fieldNames])) hperm⟩
  | timed action duration unit =>
      obtain ⟨haction, hduration, hunit⟩ := h
      exact ⟨haction.of_perm (hnames (by simp [fieldNames])) hperm,
        hduration.of_perm (hnames (by simp [fieldNames])) hperm,
        hunit.of_perm (hnames (by simp [fieldNames])) hperm⟩

theorem kind_mem_fieldNames (i : Instruction) : "kind" ∈ i.fieldNames := by
  cases i <;> simp [fieldNames]

/-! ## Objects -/

section Objects

variable {members others : List (List StringPiece × Json)}

/-- The members of an object say an instruction: its kind occurs exactly once as a string, and so does each
of its slots. -/
def IsSaidBy (i : Instruction) (members : List (List StringPiece × Json)) : Prop :=
  Once "kind" (SaysText (Vocabulary.name i.kind)) members ∧ i.SlotsSay members

theorem ofJson_object_eq_ok_iff {i : Instruction} (h : AreReadable "kind" members) :
    ofJson (.object members true) = .ok i ↔ i.IsSaidBy members := by
  have hnames : ∀ member ∈ othersOf "kind" members, (textOfPieces? member.1).isSome = true :=
    fun member hmember => (h member (mem_othersOf_iff.mp hmember).1).1
  refine (takeMember_demand_eq_ok_iff h ofHeldMembers).trans ?_
  simp only [decodeKind_eq_ok_iff, ofHeldMembers_eq_ok_iff hnames]
  constructor
  · intro hall
    obtain ⟨kind, hkind, rfl, hslots⟩ := hall
    exact ⟨hkind, (i.slotsSay_othersOf_iff (by decide)).mp hslots⟩
  · intro hall
    obtain ⟨hkind, hslots⟩ := hall
    exact ⟨i.kind, hkind, rfl, (i.slotsSay_othersOf_iff (by decide)).mpr hslots⟩

/-- An object is only ever decoded if it is closed and its members say what comes out. -/
theorem isSaidBy_of_ofJson {i : Instruction} {closed : Bool} (h : ofJson (.object members closed) = .ok i) :
    i.IsSaidBy members := by
  obtain ⟨⟨_, _⟩, htake, hrest⟩ := bind_eq_ok_iff.mp h
  obtain ⟨_, hclosed, -⟩ := bind_eq_ok_iff.mp hrest
  cases closed with
  | false => cases hclosed
  | true => exact (ofJson_object_eq_ok_iff (areReadable_of_takeMember htake)).mp h

/-- An object text is an instruction exactly if its members say one. -/
theorem decodeWhole_object_iff {text : String} {i : Instruction} (hread : read text = (.object members true, true))
    (hsound : areSoundMembers heldDepth members = true) :
    decodeWhole ofJson text = .ok i ↔ i.IsSaidBy members := by
  rw [decodeWhole_of_read hread]
  exact ofJson_object_eq_ok_iff (areReadable_of_sound hsound)

theorem IsSaidBy.of_perm {i : Instruction} (h : i.IsSaidBy members)
    (hperm : (membersNamed i.fieldNames others).Perm (membersNamed i.fieldNames members)) :
    i.IsSaidBy others :=
  ⟨h.1.of_perm i.kind_mem_fieldNames hperm, h.2.of_perm (List.Subset.refl _) hperm⟩

end Objects

end Instruction

namespace Step

section Objects

variable {members others : List (List StringPiece × Json)}

/-- The members of an object say a step: its number and its kind occur exactly once, and so does each slot of
its instruction. In a step, a kind may also be given by its number. -/
def IsSaidBy (s : Step) (members : List (List StringPiece × Json)) : Prop :=
  Once "number" (SaysNat s.number) members ∧
    Once "kind" (fun value => SaysText (Vocabulary.name s.instruction.kind) value ∨
      SaysNat s.instruction.kind.index value) members ∧
    s.instruction.SlotsSay members

theorem decodeHeldKind_eq_ok_iff {value : Json} {kind : InstructionKind} : decodeHeldKind value = .ok kind ↔
    SaysText (Vocabulary.name kind) value ∨ SaysNat kind.index value := by
  constructor
  · intro h
    unfold decodeHeldKind at h
    split at h
    · rename_i pieces
      exact Or.inl ⟨pieces, rfl, lookUp_textOf_eq_ok_iff.mp h⟩
    · rename_i numeral
      split at h
      · rename_i hzero
        cases h
        exact Or.inr ⟨numeral, rfl, natural?_eq_some_iff.mp hzero⟩
      · rename_i hone
        cases h
        exact Or.inr ⟨numeral, rfl, natural?_eq_some_iff.mp hone⟩
      · cases h
      · cases h
    · cases h
  · intro h
    rcases h with ⟨pieces, rfl, htext⟩ | ⟨numeral, rfl, hnumber⟩
    · exact lookUp_textOf_eq_ok_iff.mpr htext
    · have hnatural := natural?_eq_some_iff.mpr hnumber
      rw [decodeHeldKind, hnatural]
      cases kind <;> rfl

/-- What is left to do once the number and the kind are known. -/
def ofKind (number : Nat) (kind : InstructionKind) (held : List (List StringPiece × Json)) : Decoded Step := do
  let instruction ← Instruction.ofHeldMembers kind held
  return ⟨number, instruction⟩

/-- What is left to do once the number is known. -/
def ofNumber (number : Nat) (held : List (List StringPiece × Json)) : Decoded Step := do
  let (kind, held) ← takeMember "kind" decodeHeldKind false held
  ofKind number (← demand "kind" kind) held

theorem ofNumber_eq_ok_iff {s : Step} {number : Nat} (h : AreReadable "kind" members) :
    ofNumber number members = .ok s ↔ s.number = number ∧
      Once "kind" (fun value => SaysText (Vocabulary.name s.instruction.kind) value ∨
        SaysNat s.instruction.kind.index value) members ∧
      s.instruction.SlotsSay members := by
  have hnames : ∀ member ∈ othersOf "kind" members, (textOfPieces? member.1).isSome = true :=
    fun member hmember => (h member (mem_othersOf_iff.mp hmember).1).1
  have hothers : ∀ i : Instruction, i.SlotsSay (othersOf "kind" members) ↔ i.SlotsSay members :=
    fun i => i.slotsSay_othersOf_iff (by decide)
  refine (takeMember_demand_eq_ok_iff h (ofKind number)).trans ?_
  simp only [decodeHeldKind_eq_ok_iff, ofKind, bind_eq_ok_iff, Instruction.ofHeldMembers_eq_ok_iff hnames,
    hothers]
  constructor
  · intro hall
    obtain ⟨kind, hkind, i, ⟨rfl, hslots⟩, hpure⟩ := hall
    cases hpure
    exact ⟨rfl, hkind, hslots⟩
  · intro hall
    obtain ⟨rfl, hkind, hslots⟩ := hall
    exact ⟨s.instruction.kind, hkind, s.instruction, ⟨rfl, hslots⟩, rfl⟩

theorem ofJson_object_eq_ok_iff {s : Step} (h : AreReadable "number" members) :
    ofJson (.object members true) = .ok s ↔ s.IsSaidBy members := by
  have hothers : ∀ i : Instruction, i.SlotsSay (othersOf "number" members) ↔ i.SlotsSay members :=
    fun i => i.slotsSay_othersOf_iff (by decide)
  have hkinds : ∀ P, Once "kind" P (othersOf "number" members) ↔ Once "kind" P members :=
    fun P => once_othersOf_iff (by decide)
  refine (takeMember_demand_eq_ok_iff h ofNumber).trans ?_
  simp only [decodeNat_eq_ok_iff, ofNumber_eq_ok_iff (h.othersOf "kind"), hkinds, hothers]
  constructor
  · intro hall
    obtain ⟨number, hnumber, rfl, hkind, hslots⟩ := hall
    exact ⟨hnumber, hkind, hslots⟩
  · intro hall
    obtain ⟨hnumber, hkind, hslots⟩ := hall
    exact ⟨s.number, hnumber, rfl, hkind, hslots⟩

/-- Only objects are decoded as steps, and only if their members say what comes out. -/
theorem exists_isSaidBy_of_ofJson {value : Json} {s : Step} (h : ofJson value = .ok s) :
    ∃ members, value = .object members true ∧ s.IsSaidBy members := by
  cases value with
  | object members closed =>
      obtain ⟨⟨_, _⟩, htake, hrest⟩ := bind_eq_ok_iff.mp h
      obtain ⟨_, hclosed, -⟩ := bind_eq_ok_iff.mp hrest
      cases closed with
      | false => cases hclosed
      | true => exact ⟨members, rfl, (ofJson_object_eq_ok_iff (areReadable_of_takeMember htake)).mp h⟩
  | null => cases h
  | bool b => cases h
  | number n => cases h
  | string pieces => cases h
  | array items closed => cases h
  | fault => cases h

/-- An object text is a step exactly if its members say one. -/
theorem decodeWhole_object_iff {text : String} {s : Step} (hread : read text = (.object members true, true))
    (hsound : areSoundMembers heldDepth members = true) :
    decodeWhole ofJson text = .ok s ↔ s.IsSaidBy members := by
  rw [decodeWhole_of_read hread]
  exact ofJson_object_eq_ok_iff (areReadable_of_sound hsound)

/-- The names that count for a step. -/
def fieldNames (s : Step) : List String :=
  "number" :: s.instruction.fieldNames

theorem IsSaidBy.of_perm {s : Step} (h : s.IsSaidBy members)
    (hperm : (membersNamed s.fieldNames others).Perm (membersNamed s.fieldNames members)) :
    s.IsSaidBy others := by
  obtain ⟨hnumber, hkind, hslots⟩ := h
  have hnames : s.instruction.fieldNames ⊆ s.fieldNames := List.subset_cons_self "number" _
  exact ⟨hnumber.of_perm List.mem_cons_self hperm,
    hkind.of_perm (hnames s.instruction.kind_mem_fieldNames) hperm, hslots.of_perm hnames hperm⟩

end Objects

end Step

/-! ## Object texts -/

/-- **What an object text is decoded as.** An object whose members can all be read is an instruction exactly
if its members say one, and a step exactly if they say one. Members of other names do not count, and neither
does the order of those that do. -/
theorem object_decodes_iff {text : String} {members : List (List StringPiece × Json)}
    (hread : read text = (.object members true, true)) (hsound : areSoundMembers heldDepth members = true) :
    (∀ i, decodeWhole Instruction.ofJson text = .ok i ↔ i.IsSaidBy members) ∧
    (∀ s, decodeWhole Step.ofJson text = .ok s ↔ s.IsSaidBy members) ∧
    ∀ other others, read other = (.object others true, true) → areSoundMembers heldDepth others = true →
      (∀ i, decodeWhole Instruction.ofJson text = .ok i →
        (membersNamed i.fieldNames others).Perm (membersNamed i.fieldNames members) →
        decodeWhole Instruction.ofJson other = .ok i) ∧
      ∀ s, decodeWhole Step.ofJson text = .ok s →
        (membersNamed s.fieldNames others).Perm (membersNamed s.fieldNames members) →
        decodeWhole Step.ofJson other = .ok s := by
  refine ⟨fun i => Instruction.decodeWhole_object_iff hread hsound,
    fun s => Step.decodeWhole_object_iff hread hsound, ?_⟩
  intro other others hother hothers
  constructor
  · intro i hi hperm
    have hsaid := (Instruction.decodeWhole_object_iff hread hsound).mp hi
    exact (Instruction.decodeWhole_object_iff hother hothers).mpr (hsaid.of_perm hperm)
  · intro s hs hperm
    have hsaid := (Step.decodeWhole_object_iff hread hsound).mp hs
    exact (Step.decodeWhole_object_iff hother hothers).mpr (hsaid.of_perm hperm)

/-- A timed step with its kind last, its action as an object, and a member that nobody knows. -/
def looseTimedStep : List (String × Json) :=
  [("note", .null), ("unit", ofText "minutes"), ("first", ofNat 3), ("number", ofNat 7),
    ("action", ofMembers [("bake", .null)]), ("duration", ofText "007"), ("kind", ofText "timed")]

theorem looseTimedStep_decodes :
    read (ofMembers looseTimedStep).toCompactText = (ofMembers looseTimedStep, true) ∧
    areSoundMembers heldDepth (writtenMembers looseTimedStep) = true ∧
    decodeWhole Step.ofJson (ofMembers looseTimedStep).toCompactText =
      .ok ⟨7, .timed .bake ⟨"007", by decide⟩ .minutes⟩ := by
  have hprintable : (ofMembers looseTimedStep).IsPrintable := by
    refine isPrintable_ofMembers ?_
    simp only [looseTimedStep, List.forall_mem_cons]
    exact ⟨.null, isPrintable_ofText _, isPrintable_ofNat _, isPrintable_ofNat _,
      isPrintable_ofMembers (by simpa using .null), isPrintable_ofText _, isPrintable_ofText _, by simp⟩
  have hread := hprintable.read_toCompactText
  have hsound : areSoundMembers heldDepth (writtenMembers looseTimedStep) = true := by decide +kernel
  refine ⟨hread, hsound, ((object_decodes_iff hread hsound).2.1 _).mpr ?_⟩
  refine ⟨once_writtenMembers rfl (saysNat_ofNat (by decide)), ?_, ?_, ?_, ?_⟩
  · exact once_writtenMembers rfl (Or.inl (saysText_ofText "timed"))
  · exact once_writtenMembers rfl (Or.inr ⟨_, _, _, rfl, textOfPieces?_piecesOfText _, rfl⟩)
  · exact once_writtenMembers rfl (saysText_ofText "007")
  · exact once_writtenMembers rfl (Or.inl (saysText_ofText "minutes"))

end RecipeScript
