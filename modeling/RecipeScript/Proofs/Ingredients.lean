import RecipeScript.Proofs.Alphabetical
import RecipeScript.Proofs.Replay

/-!
# The ingredients of a recipe

A recipe keeps its ingredients beside its steps, and the two have to stay in step: what is in use is what
the mixing steps mix, each ingredient once (`Recipe.IsConsistent`). Recording keeps this, and as no step
is ever taken out on its own, nothing has ever to be taken out of use.

What is shown is the alphabetical list of what is in use, so it depends on the set alone: neither the
order in which the set is gone through nor the order of the steps makes a difference. In the text of a
recipe the list stands between two headings (`ingredientBlock`), or is left out with its heading.
-/

namespace RecipeScript

/-- Whether an instruction mixes an ingredient. A timed instruction mixes none. -/
def Instruction.Mixes (a : Ingredient) : Instruction → Prop
  | mixing _ first second => a = first ∨ a = second
  | timed _ _ _ => False

theorem Instruction.exists_mixes_iff (i : Instruction) :
    (∃ a, i.Mixes a) ↔ ∃ action first second, i = .mixing action first second := by
  cases i with
  | mixing action first second => exact ⟨fun _ => ⟨action, first, second, rfl⟩, fun _ => ⟨first, Or.inl rfl⟩⟩
  | timed action duration unit => exact ⟨fun ⟨_, h⟩ => h.elim, fun ⟨_, _, _, h⟩ => nomatch h⟩

namespace Recipe

/-! ## Steps and ingredients -/

/-- The steps are numbered from one, and the ingredients in use are those that the steps mix, each once. -/
structure IsConsistent (r : Recipe) : Prop where
  numbers : r.steps.map Step.number = List.range' 1 r.steps.length
  nodup : r.used.Nodup
  mem_used_iff : ∀ a, a ∈ r.used ↔ ∃ s ∈ r.steps, s.instruction.Mixes a

section Record

variable {r : Recipe} {used : List Ingredient} {a b : Ingredient}

theorem mem_use_iff : b ∈ use used a ↔ b ∈ used ∨ b = a := by
  unfold use
  split
  · rename_i ha
    refine ⟨Or.inl, fun h => ?_⟩
    rcases h with h | rfl
    · exact h
    · exact ha
  · rw [List.mem_append, List.mem_singleton]

theorem nodup_use (h : used.Nodup) (a : Ingredient) : (use used a).Nodup := by
  unfold use
  split
  · exact h
  · rename_i ha
    exact List.nodup_append.mpr ⟨h, List.nodup_singleton a, by
      rintro b hb c hc rfl
      exact ha (List.mem_singleton.mp hc ▸ hb)⟩

theorem mem_used_record_iff (i : Instruction) : a ∈ (r.record i).used ↔ a ∈ r.used ∨ i.Mixes a := by
  cases i with
  | mixing action first second =>
      show a ∈ use (use r.used first) second ↔ a ∈ r.used ∨ (a = first ∨ a = second)
      rw [mem_use_iff, mem_use_iff, or_assoc]
  | timed action duration unit => exact (or_iff_left id).symm

theorem nodup_used_record (h : r.used.Nodup) (i : Instruction) : (r.record i).used.Nodup := by
  cases i with
  | mixing action first second => exact nodup_use (nodup_use h first) second
  | timed action duration unit => exact h

theorem isConsistent_empty : empty.IsConsistent where
  numbers := rfl
  nodup := List.nodup_nil
  mem_used_iff _ := ⟨fun h => absurd h List.not_mem_nil, fun ⟨_, hs, _⟩ => absurd hs List.not_mem_nil⟩

/-- **Recording keeps steps and ingredients in step.** -/
theorem IsConsistent.record (h : r.IsConsistent) (i : Instruction) : (r.record i).IsConsistent where
  numbers := by
    show (r.steps ++ [r.nextStep i]).map Step.number = List.range' 1 (r.steps ++ [r.nextStep i]).length
    rw [List.map_append, h.numbers, List.length_append, List.length_singleton, List.range'_concat,
      Nat.one_mul, Nat.add_comm 1]
    rfl
  nodup := nodup_used_record h.nodup i
  mem_used_iff a := by
    show a ∈ (r.record i).used ↔ ∃ s ∈ r.steps ++ [r.nextStep i], s.instruction.Mixes a
    rw [mem_used_record_iff, h.mem_used_iff]
    simp [or_and_right, exists_or, nextStep]

theorem IsConsistent.recordAll (h : r.IsConsistent) (instructions : List Instruction) :
    (instructions.foldl Recipe.record r).IsConsistent := by
  induction instructions generalizing r with
  | nil => exact h
  | cons i instructions ih => exact ih (h.record i)

theorem mem_used_recordAll_iff (instructions : List Instruction) :
    a ∈ (instructions.foldl Recipe.record r).used ↔ a ∈ r.used ∨ ∃ i ∈ instructions, i.Mixes a := by
  induction instructions generalizing r with
  | nil => simp
  | cons i instructions ih =>
      rw [List.foldl_cons, ih, mem_used_record_iff, or_assoc]
      simp

end Record

/-! ## The list of ingredients -/

section Listed

variable {r other : Recipe}

theorem mem_ingredients_iff {a : Ingredient} : a ∈ r.ingredients ↔ a ∈ r.used :=
  Vocabulary.mem_alphabetical

/-- Recipes that use the same ingredients list them in the same way. -/
theorem ingredients_eq_of_mem_used_iff (h : r.IsConsistent) (hother : other.IsConsistent)
    (hsame : ∀ a, a ∈ r.used ↔ a ∈ other.used) : r.ingredients = other.ingredients :=
  Vocabulary.alphabetical_eq_of_mem_iff h.nodup hother.nodup hsame

theorem IsConsistent.ingredients_eq_nil_iff (h : r.IsConsistent) :
    r.ingredients = [] ↔ ¬ ∃ s ∈ r.steps, ∃ action first second, s.instruction = .mixing action first second := by
  rw [List.eq_nil_iff_forall_not_mem]
  simp only [mem_ingredients_iff, h.mem_used_iff, ← Instruction.exists_mixes_iff]
  constructor
  · rintro hnone ⟨s, hs, a, ha⟩
    exact hnone a ⟨s, hs, ha⟩
  · rintro hnone a ⟨s, hs, ha⟩
    exact hnone ⟨s, hs, a, ha⟩

end Listed

/-! ## The block of ingredients -/

/-- The lines of a text about ingredients: from their heading up to the heading of the instructions. -/
def ingredientBlock (text : String) : List String :=
  (((splitOn (· == '\n') text.toList).map String.ofList).dropWhile (· ≠ "INGREDIENTS:")).takeWhile
    (· ≠ "INSTRUCTIONS:")

section Headings

variable {heading : String} {front : List String}

theorem dropWhile_append_of_not_mem (h : heading ∉ front) (back : List String) :
    (front ++ back).dropWhile (· ≠ heading) = back.dropWhile (· ≠ heading) :=
  List.dropWhile_append_of_pos fun _ hline => decide_eq_true (ne_of_mem_of_not_mem hline h)

theorem takeWhile_append_of_not_mem (h : heading ∉ front) (back : List String) :
    (front ++ heading :: back).takeWhile (· ≠ heading) = front := by
  have hfront : ∀ line ∈ front, decide (line ≠ heading) = true :=
    fun _ hline => decide_eq_true (ne_of_mem_of_not_mem hline h)
  rw [List.takeWhile_append_of_pos hfront, List.takeWhile_cons_of_neg (by simp), List.append_nil]

/-- A line that is set in is no heading. -/
theorem ne_append_of_head? (h : heading.toList.head? ≠ some ' ') (rest : String) : heading ≠ "  " ++ rest := by
  intro hline
  rw [hline, String.toList_append] at h
  exact h rfl

end Headings

section Block

variable {r : Recipe}

theorem ingredientLines_of_nil (h : r.ingredients = []) : r.ingredientLines = [] := by
  unfold ingredientLines
  rw [h]

theorem ingredientLines_of_ne_nil (h : r.ingredients ≠ []) : r.ingredientLines =
    ["INGREDIENTS:", "  " ++ ", ".intercalate (r.ingredients.map Vocabulary.name), ""] := by
  unfold ingredientLines
  split
  · exact absurd (by assumption) h
  · rfl

/-- The lines of a report from the heading of the instructions on. -/
def instructionLines (r : Recipe) : List String :=
  "INSTRUCTIONS:" :: (r.steps.map stepLine ++ ["", rule, ""])

theorem reportLines_eq (r : Recipe) :
    r.reportLines = ["", rule, title, rule, ""] ++ (r.ingredientLines ++ r.instructionLines) := by
  simp [reportLines, instructionLines]

theorem heading_not_mem_instructionLines (r : Recipe) : "INGREDIENTS:" ∉ r.instructionLines := by
  unfold instructionLines
  rw [List.mem_cons, List.mem_append, List.mem_map, not_or, not_or]
  refine ⟨by decide, ?_, by decide⟩
  rintro ⟨s, -, hline⟩
  exact ne_append_of_head? (by decide) s.sentence hline.symm

/-- **The block of ingredients is found in the text as it was put there.** -/
theorem IsConsistent.ingredientBlock_report (h : r.IsConsistent) :
    ingredientBlock r.report = r.ingredientLines := by
  by_cases hsteps : r.steps = []
  · have hnil : r.ingredients = [] := h.ingredients_eq_nil_iff.mpr (by rw [hsteps]; simp)
    rw [report_of_nil hsteps, ingredientLines_of_nil hnil]
    decide
  · have htop : "INGREDIENTS:" ∉ ["", rule, title, rule, ""] := by decide
    unfold ingredientBlock
    rw [map_splitOn_report hsteps, reportLines_eq, dropWhile_append_of_not_mem htop]
    by_cases hnil : r.ingredients = []
    -- without ingredients no line is their heading
    · have hnone := dropWhile_append_of_not_mem r.heading_not_mem_instructionLines []
      rw [List.append_nil] at hnone
      rw [ingredientLines_of_nil hnil, List.nil_append, hnone]
      rfl
    · have hblock : "INSTRUCTIONS:" ∉ r.ingredientLines := by
        rw [ingredientLines_of_ne_nil hnil, List.mem_cons, List.mem_cons, not_or, not_or]
        exact ⟨by decide, ne_append_of_head? (by decide) _, by decide⟩
      have hheading : (r.ingredientLines ++ r.instructionLines).dropWhile (· ≠ "INGREDIENTS:") =
          r.ingredientLines ++ r.instructionLines := by
        rw [ingredientLines_of_ne_nil hnil, List.cons_append, List.dropWhile_cons_of_neg (by decide)]
      rw [hheading]
      exact takeWhile_append_of_not_mem hblock _

theorem IsConsistent.ingredientBlock_ne_nil_iff (h : r.IsConsistent) : ingredientBlock r.report ≠ [] ↔
    ∃ s ∈ r.steps, ∃ action first second, s.instruction = .mixing action first second := by
  rw [h.ingredientBlock_report, ← not_iff_not, ← h.ingredients_eq_nil_iff, not_not]
  constructor
  · intro hlines
    by_cases hnil : r.ingredients = []
    · exact hnil
    · rw [ingredientLines_of_ne_nil hnil] at hlines
      cases hlines
  · exact ingredientLines_of_nil

/-- Instructions recorded in another order bring in the same ingredients, and the same block of them. -/
theorem IsConsistent.recordAll_perm (h : r.IsConsistent) {instructions others : List Instruction}
    (hperm : instructions.Perm others) :
    (instructions.foldl Recipe.record r).ingredients = (others.foldl Recipe.record r).ingredients
      ∧ ingredientBlock (instructions.foldl Recipe.record r).report =
        ingredientBlock (others.foldl Recipe.record r).report := by
  have hlist : (instructions.foldl Recipe.record r).ingredients = (others.foldl Recipe.record r).ingredients := by
    refine ingredients_eq_of_mem_used_iff (h.recordAll instructions) (h.recordAll others) fun a => ?_
    simp only [mem_used_recordAll_iff, hperm.mem_iff]
  refine ⟨hlist, ?_⟩
  rw [(h.recordAll instructions).ingredientBlock_report, (h.recordAll others).ingredientBlock_report]
  unfold ingredientLines
  rw [hlist]

end Block

/-- What a recipe shows of its ingredients is decided by its steps alone. -/
structure ShowsIngredients (r : Recipe) : Prop extends IsConsistent r where
  pairwise_ingredients : r.ingredients.Pairwise fun a b => Vocabulary.name a < Vocabulary.name b
  mem_ingredients_iff : ∀ a, a ∈ r.ingredients ↔ a ∈ r.used
  /-- Whatever the order in which the ingredients in use are gone through, this list comes out. -/
  any_order : ∀ order : List Ingredient, order.Perm r.used → Vocabulary.alphabetical order = r.ingredients
  /-- Whatever the order in which instructions are recorded next, the same is shown. -/
  any_sequence : ∀ instructions others : List Instruction, instructions.Perm others →
    (instructions.foldl record r).ingredients = (others.foldl record r).ingredients
      ∧ ingredientBlock (instructions.foldl record r).report = ingredientBlock (others.foldl record r).report
  /-- There is a block of ingredients exactly if there is something mixed. -/
  block_iff : ingredientBlock r.report ≠ [] ↔
    ∃ s ∈ r.steps, ∃ action first second, s.instruction = .mixing action first second

/-- **A recipe whose ingredients are in step with its steps shows them as its steps have them.** -/
theorem IsConsistent.showsIngredients {r : Recipe} (h : r.IsConsistent) : r.ShowsIngredients where
  toIsConsistent := h
  pairwise_ingredients := Vocabulary.pairwise_alphabetical h.nodup
  mem_ingredients_iff _ := Recipe.mem_ingredients_iff
  any_order _ hperm :=
    Vocabulary.alphabetical_eq_of_mem_iff (hperm.nodup_iff.mpr h.nodup) h.nodup fun _ => hperm.mem_iff
  any_sequence _ _ hperm := h.recordAll_perm hperm
  block_iff := h.ingredientBlock_ne_nil_iff

end Recipe

end RecipeScript
