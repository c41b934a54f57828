import RecipeScript.Proofs.JsonPretty
import RecipeScript.Proofs.JsonRoundTrip
import RecipeScript.Proofs.Replay

/-!
# The two reports tell the same

The JSON of a recipe is read back as what the recipe holds: its ingredients and its steps, in their order. So
nothing is lost in it, and as nothing is lost in the text either, each of the two reports determines the other.

A recipe that was changed by recording and starting over is the recipe of the instructions recorded since the
last start (`exists_ofInstructions`), and of such a recipe the steps tell everything.
-/

namespace RecipeScript

open Json

namespace Recipe

/-! ## Changes -/

/-- A change that is made to a recipe. -/
inductive Change where
  | record (i : Instruction)
  | reset

/-- Makes a change. -/
def change (r : Recipe) : Change → Recipe
  | .record i => r.record i
  | .reset => r.reset

/-- The recipe after changes to one without steps. -/
def ofChanges (changes : List Change) : Recipe :=
  changes.foldl change empty

theorem exists_ofInstructions (changes : List Change) :
    ∃ instructions, ofChanges changes = ofInstructions instructions := by
  induction changes using List.reverseRecOn with
  | nil => exact ⟨[], rfl⟩
  | append_singleton changes c ih =>
      obtain ⟨instructions, h⟩ := ih
      have hlast : ofChanges (changes ++ [c]) = (ofChanges changes).change c := List.foldl_append
      cases c with
      | record i => exact ⟨instructions ++ [i], by rw [hlast, h, ofInstructions_append]; rfl⟩
      | reset => exact ⟨[], hlast⟩

theorem ofInstructions_eq_of_map_instruction {instructions others : List Instruction}
    (h : (ofInstructions instructions).steps.map Step.instruction =
      (ofInstructions others).steps.map Step.instruction) :
    ofInstructions instructions = ofInstructions others := by
  rw [steps_ofInstructions, steps_ofInstructions, map_instruction_numbered, map_instruction_numbered] at h
  rw [h]

/-! ## The JSON of a recipe -/

theorem decodeWord_wordJson {α : Type} [Vocabulary α] (a : α) :
    decodeWord (Instruction.wordJson a) = .ok a := by
  have htext : textOf (piecesOfText (Vocabulary.name a).toList) = .ok (Vocabulary.name a) :=
    textOf_eq_ok_iff.mpr (textOfPieces?_piecesOfText _)
  rw [Instruction.wordJson, ofText, decodeWord, htext, ok_bind]
  exact lookUp_eq_ok_iff.mpr rfl

theorem isPrintable_toJson (r : Recipe) : r.toJson.IsPrintable := by
  refine isPrintable_ofMembers fun member hmember => ?_
  simp only [List.mem_cons, List.not_mem_nil, or_false] at hmember
  rcases hmember with rfl | rfl
  · refine .array fun value hvalue => ?_
    obtain ⟨a, -, rfl⟩ := List.mem_map.mp hvalue
    exact isPrintable_ofText _
  · refine .array fun value hvalue => ?_
    obtain ⟨s, -, rfl⟩ := List.mem_map.mp hvalue
    exact s.isPrintable_toJson

theorem read_jsonReport (r : Recipe) : read r.jsonReport = (r.toJson, true) :=
  r.isPrintable_toJson.read_toPrettyText

theorem lays_jsonReport (r : Recipe) : Lays r.jsonReport.toList r.toJson := by
  unfold jsonReport toPrettyText
  rw [String.toList_ofList]
  exact r.isPrintable_toJson.lays_pretty 0

/-- The number of a step stands in front of the members of its instruction, which are found behind it. -/
theorem instruction_eq_of_toJson {s t : Step} (h : s.toJson = t.toJson) : s.instruction = t.instruction := by
  have hmembers : writtenMembers s.members = writtenMembers t.members := by
    unfold Step.toJson ofMembers at h
    exact (Json.object.inj h).1
  have htails : writtenMembers s.instruction.members = writtenMembers t.instruction.members :=
    (List.cons.inj hmembers).2
  have hjson : s.instruction.toJson = t.instruction.toJson := congrArg (Json.object · true) htails
  have hs := s.instruction.ofJson_toJson
  rw [hjson, t.instruction.ofJson_toJson] at hs
  exact (Except.ok.inj hs).symm

theorem map_instruction_eq_of_map_toJson {ss ts : List Step} (h : ss.map Step.toJson = ts.map Step.toJson) :
    ss.map Step.instruction = ts.map Step.instruction := by
  have hsame : List.Forall₂ (fun s t : Step => s.toJson = t.toJson) ss ts := by
    rw [← List.forall₂_eq_eq_eq, List.forall₂_map_left_iff, List.forall₂_map_right_iff] at h
    exact h
  rw [← List.forall₂_eq_eq_eq, List.forall₂_map_left_iff, List.forall₂_map_right_iff]
  exact hsame.imp fun s t => instruction_eq_of_toJson

/-- Every step is read back as long as its number is one of 64 bits. -/
theorem forall₂_ofJson_iff (instructions : List Instruction) :
    List.Forall₂ (fun value s => Step.ofJson value = .ok s)
        ((ofInstructions instructions).steps.map Step.toJson) (ofInstructions instructions).steps ↔
      (ofInstructions instructions).steps.length < Nat.pow 2 64 := by
  have hnumbers : (ofInstructions instructions).steps.map Step.number =
      List.range' 1 (ofInstructions instructions).steps.length := by
    rw [steps_ofInstructions, length_numbered]
    exact map_number_numbered instructions
  have hmem : ∀ n, n ∈ (ofInstructions instructions).steps.map Step.number ↔
      1 ≤ n ∧ n < 1 + (ofInstructions instructions).steps.length := by
    intro n
    rw [hnumbers, List.mem_range'_1]
  rw [List.forall₂_map_left_iff, List.forall₂_same]
  constructor
  · intro h
    rcases Nat.eq_zero_or_pos (ofInstructions instructions).steps.length with hzero | hpos
    · rw [hzero]
      exact Nat.pow_pos (by decide)
    · -- the last step is numbered with the length
      obtain ⟨s, hs, hlast⟩ := List.mem_map.mp ((hmem _).mpr ⟨hpos, by omega⟩)
      rw [← hlast]
      exact Step.number_lt_of_ofJson (h s hs)
  · intro h s hs
    have hbound := (hmem s.number).mp (List.mem_map_of_mem hs)
    exact Step.ofJson_toJson (by omega)

/-! ## One report from the other -/

theorem ofInstructions_eq_of_report {instructions others : List Instruction}
    (h : (ofInstructions instructions).report = (ofInstructions others).report) :
    ofInstructions instructions = ofInstructions others := by
  have hreplay := executeEach_stepsOfReport instructions
  rw [h, executeEach_stepsOfReport others] at hreplay
  exact (congrArg Prod.snd hreplay).symm

theorem ofInstructions_eq_of_jsonReport {instructions others : List Instruction}
    (h : (ofInstructions instructions).jsonReport = (ofInstructions others).jsonReport) :
    ofInstructions instructions = ofInstructions others := by
  have hread := read_jsonReport (ofInstructions instructions)
  rw [h, read_jsonReport] at hread
  have hjson : (ofInstructions others).toJson = (ofInstructions instructions).toJson :=
    (Prod.mk.inj hread).1
  unfold toJson ofMembers ofList at hjson
  simp only [List.map_cons, List.map_nil, Json.object.injEq, List.cons.injEq, Prod.mk.injEq,
    Json.array.injEq, and_true, true_and] at hjson
  exact ofInstructions_eq_of_map_instruction (map_instruction_eq_of_map_toJson hjson.2.symm)

/--
**The JSON of a recipe is faithful.** It is JSON, and is read as an object with two members and no others: the
ingredients of the recipe, and its steps in their order, which are decoded as themselves exactly as long as there
are no more of them than 64 bits can count. And it tells neither more nor less than the text: two recipes have
the same JSON exactly if they have the same text, and the same text exactly if they have the same steps.
-/
theorem jsonReport_faithful (changes : List Change) :
    let recipe := ofChanges changes
    (∃ ingredients steps : List Json,
        let value := ofMembers [("ingredients", ofList ingredients), ("steps", ofList steps)]
        Lays recipe.jsonReport.toList value ∧ read recipe.jsonReport = (value, true)
          ∧ List.Forall₂ (fun value a => decodeWord value = .ok a) ingredients recipe.ingredients
          ∧ (List.Forall₂ (fun value s => Step.ofJson value = .ok s) steps recipe.steps ↔
            recipe.steps.length < Nat.pow 2 64))
      ∧ ∀ others, ((ofChanges others).jsonReport = recipe.jsonReport ↔ (ofChanges others).report = recipe.report)
        ∧ ((ofChanges others).report = recipe.report ↔ (ofChanges others).steps = recipe.steps) := by
  intro recipe
  obtain ⟨instructions, hrecipe⟩ : ∃ instructions, recipe = ofInstructions instructions :=
    exists_ofInstructions changes
  rw [hrecipe]
  constructor
  · refine ⟨_, _, lays_jsonReport _, read_jsonReport _, ?_, forall₂_ofJson_iff instructions⟩
    rw [List.forall₂_map_left_iff, List.forall₂_same]
    exact fun a _ => decodeWord_wordJson a
  · intro others
    obtain ⟨otherInstructions, hothers⟩ := exists_ofInstructions others
    rw [hothers]
    -- each of the three determines the instructions, and these determine everything
    have hjson := @ofInstructions_eq_of_jsonReport otherInstructions instructions
    have htext := @ofInstructions_eq_of_report otherInstructions instructions
    have hsteps : (ofInstructions otherInstructions).steps = (ofInstructions instructions).steps →
        ofInstructions otherInstructions = ofInstructions instructions := fun h =>
      ofInstructions_eq_of_map_instruction (congrArg (List.map Step.instruction) h)
    exact ⟨⟨fun h => congrArg report (hjson h), fun h => congrArg jsonReport (htext h)⟩,
      ⟨fun h => congrArg steps (htext h), fun h => congrArg report (hsteps h)⟩⟩

end Recipe

end RecipeScript
