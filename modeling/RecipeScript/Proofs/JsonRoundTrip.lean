import RecipeScript.Proofs.InstructionJson

/-!
# What is written as JSON is read back

Steps, instructions and durations are written as JSON texts that the decoders of their own types read as
the same values. So a value has one text of its own, no two values share one, and whatever text a value was
decoded from, writing it and decoding again changes nothing.
-/

namespace RecipeScript

open Json

section RoundTrip

variable {α : Type} {encode : α → Json} {decode : Json → Decoded α} {legal : α → Prop}

/-- Decodes a text and writes what was found. -/
def rewritten (encode : α → Json) (decode : Json → Decoded α) (text : String) : Decoded String := do
  let a ← decodeWhole decode text
  return (encode a).toCompactText

/-- Writing and decoding fit together: what is written for a legal value is decoded as that value, and only
legal values are ever decoded; a text that was rewritten once is rewritten the same again; and different values
are written differently. -/
structure IsRoundTrip (encode : α → Json) (decode : Json → Decoded α) (legal : α → Prop) : Prop where
  decodes : ∀ a, legal a → decodeWhole decode (encode a).toCompactText = .ok a
  legal_of_decodes : ∀ text a, decodeWhole decode text = .ok a → legal a
  again : ∀ text a, decodeWhole decode text = .ok a →
    decodeWhole decode (encode a).toCompactText = .ok a ∧
      rewritten encode decode (encode a).toCompactText = .ok (encode a).toCompactText
  inj : ∀ a b, legal a → legal b → (encode a).toCompactText = (encode b).toCompactText → a = b

/-- It is enough that what is written is decoded, and that only legal values are. -/
theorem isRoundTrip_of_decodes
    (hdecodes : ∀ a, legal a → decodeWhole decode (encode a).toCompactText = .ok a)
    (hlegal : ∀ text a, decodeWhole decode text = .ok a → legal a) : IsRoundTrip encode decode legal where
  decodes := hdecodes
  legal_of_decodes := hlegal
  again := by
    intro text a h
    have hagain := hdecodes a (hlegal text a h)
    unfold rewritten
    rw [hagain]
    exact ⟨rfl, rfl⟩
  inj := by
    intro a b ha hb htext
    have hdecoded := hdecodes a ha
    rw [htext, hdecodes b hb] at hdecoded
    exact (Except.ok.inj hdecoded).symm

end RoundTrip

/-! ## Instructions -/

namespace Instruction

/-- Every member that is written for an instruction is a string. -/
theorem exists_ofText_of_mem_members {i : Instruction} {member : String × Json} (h : member ∈ i.members) :
    ∃ text, member.2 = ofText text := by
  cases i with
  | mixing action first second =>
      simp only [members, List.mem_cons, List.not_mem_nil, or_false] at h
      rcases h with rfl | rfl | rfl | rfl <;> exact ⟨_, rfl⟩
  | timed action duration unit =>
      simp only [members, List.mem_cons, List.not_mem_nil, or_false] at h
      rcases h with rfl | rfl | rfl | rfl <;> exact ⟨_, rfl⟩

theorem isPrintable_of_mem_members {i : Instruction} {member : String × Json} (h : member ∈ i.members) :
    member.2.IsPrintable := by
  obtain ⟨text, htext⟩ := exists_ofText_of_mem_members h
  rw [htext]
  exact isPrintable_ofText text

theorem isSound_of_mem_members {i : Instruction} {member : String × Json} (h : member ∈ i.members) :
    member.2.isSound heldDepth = true := by
  obtain ⟨text, htext⟩ := exists_ofText_of_mem_members h
  rw [htext, ofText, isSound, textOfPieces?_piecesOfText, Option.isSome_some]

theorem saysWord_wordJson {α : Type} [Vocabulary α] (a : α) : SaysWord a (wordJson a) :=
  Or.inl (saysText_ofText (Vocabulary.name a))

/-- What is written for an instruction says that instruction. -/
theorem isSaidBy_members (i : Instruction) : i.IsSaidBy (writtenMembers i.members) := by
  cases i with
  | mixing action first second =>
      exact ⟨once_writtenMembers rfl (saysText_ofText _), once_writtenMembers rfl (saysWord_wordJson action),
        once_writtenMembers rfl (saysWord_wordJson first), once_writtenMembers rfl (saysWord_wordJson second)⟩
  | timed action duration unit =>
      exact ⟨once_writtenMembers rfl (saysText_ofText _), once_writtenMembers rfl (saysWord_wordJson action),
        once_writtenMembers rfl (saysText_ofText _), once_writtenMembers rfl (saysWord_wordJson unit)⟩

theorem ofJson_toJson (i : Instruction) : ofJson i.toJson = .ok i := by
  have hreadable : AreReadable "kind" (writtenMembers i.members) :=
    areReadable_writtenMembers fun _ h _ => isSound_of_mem_members h
  exact (ofJson_object_eq_ok_iff hreadable).mpr i.isSaidBy_members

theorem decodeWhole_toCompactText (i : Instruction) : decodeWhole ofJson i.toJson.toCompactText = .ok i := by
  have hread : read i.toJson.toCompactText = (i.toJson, true) :=
    (isPrintable_ofMembers fun _ h => isPrintable_of_mem_members h).read_toCompactText
  rw [decodeWhole_of_read hread, ofJson_toJson]

end Instruction

/-! ## Steps -/

namespace Step

/-- What is written for a step, member by member. -/
def members (s : Step) : List (String × Json) :=
  ("number", Json.ofNat s.number) :: s.instruction.members

theorem valuesOf_members {s : Step} {name : String} (h : name ≠ "number") :
    valuesOf name (writtenMembers s.members) = valuesOf name (writtenMembers s.instruction.members) :=
  valuesOf_cons_of_not fun hnamed => h (isNamed_written.mp hnamed).symm

/-- What is written for a step says that step. -/
theorem isSaidBy_members {s : Step} (h : s.number < Nat.pow 2 64) : s.IsSaidBy (writtenMembers s.members) := by
  obtain ⟨⟨kind, hkind, htext⟩, hslots⟩ := s.instruction.isSaidBy_members
  -- the number in front is under a name of its own, so everything else is found as in the instruction
  refine ⟨?_, ⟨kind, by rw [valuesOf_members (by decide), hkind], Or.inl htext⟩, ?_⟩
  · refine once_writtenMembers ?_ (saysNat_ofNat h)
    unfold members
    cases s.instruction <;> rfl
  · refine (s.instruction.slotsSay_congr fun name hname => valuesOf_members ?_).mpr hslots
    rintro rfl
    exact absurd hname (by decide)

theorem isPrintable_toJson (s : Step) : s.toJson.IsPrintable := by
  refine isPrintable_ofMembers fun member hmember => ?_
  rcases List.mem_cons.mp hmember with rfl | hmember
  · exact isPrintable_ofNat s.number
  · exact Instruction.isPrintable_of_mem_members hmember

theorem ofJson_toJson {s : Step} (h : s.number < Nat.pow 2 64) : ofJson s.toJson = .ok s := by
  have hreadable : AreReadable "number" (writtenMembers s.members) := by
    refine areReadable_writtenMembers fun member hmember hne => ?_
    rcases List.mem_cons.mp hmember with rfl | hmember
    · exact absurd rfl hne
    · exact Instruction.isSound_of_mem_members hmember
  exact (ofJson_object_eq_ok_iff hreadable).mpr (isSaidBy_members h)

theorem decodeWhole_toCompactText {s : Step} (h : s.number < Nat.pow 2 64) :
    decodeWhole ofJson s.toJson.toCompactText = .ok s := by
  have hread : read s.toJson.toCompactText = (s.toJson, true) := s.isPrintable_toJson.read_toCompactText
  rw [decodeWhole_of_read hread, ofJson_toJson h]

/-- A step that was decoded has a number that can be written. -/
theorem number_lt_of_ofJson {value : Json} {s : Step} (h : ofJson value = .ok s) : s.number < Nat.pow 2 64 := by
  obtain ⟨_, -, ⟨_, -, _, -, -, -, -, -, hlt⟩, -, -⟩ := exists_isSaidBy_of_ofJson h
  exact hlt

end Step

/-! ## Durations -/

/-- A duration as JSON. -/
def Duration.toJson (d : Duration) : Json :=
  Json.ofText d.digits

theorem Duration.decodeWhole_toCompactText (d : Duration) :
    decodeWhole Instruction.decodeDuration d.toJson.toCompactText = .ok d := by
  have hread : read d.toJson.toCompactText = (d.toJson, true) := (isPrintable_ofText d.digits).read_toCompactText
  rw [decodeWhole_of_read hread, Instruction.decodeDuration_eq_ok_iff]
  exact saysText_ofText d.digits

/-! ## Round trips -/

/-- **Steps, instructions and durations go through JSON unchanged**: steps with every number below 2⁶⁴, which
are all that are ever decoded, and all instructions and durations. -/
theorem json_round_trips :
    IsRoundTrip Step.toJson Step.ofJson (fun s => s.number < Nat.pow 2 64) ∧
    IsRoundTrip Instruction.toJson Instruction.ofJson (fun _ => True) ∧
    IsRoundTrip Duration.toJson Instruction.decodeDuration (fun _ => True) := by
  refine ⟨?_, ?_, ?_⟩
  · exact isRoundTrip_of_decodes (fun _ h => Step.decodeWhole_toCompactText h) fun _ _ h =>
      Step.number_lt_of_ofJson (decode_of_decodeWhole h)
  · exact isRoundTrip_of_decodes (fun i _ => i.decodeWhole_toCompactText) fun _ _ _ => trivial
  · exact isRoundTrip_of_decodes (fun d _ => d.decodeWhole_toCompactText) fun _ _ _ => trivial

end RecipeScript
