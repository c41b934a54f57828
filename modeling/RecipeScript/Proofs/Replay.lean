import RecipeScript.Proofs.Digits
import RecipeScript.Proofs.Exchange
import RecipeScript.Proofs.Sentences

/-!
# A report can be replayed

The text of a recipe has a line for every step, and nothing else in it looks like one: so the steps can
be found again in the text (`stepsOfReport_report`). What stands behind the number of a step is the
sentence of its instruction, and a sentence is a command. So whoever executes the lines of a report on
a new recipe gets the recipe back, and no two recipes with different steps have the same text.
-/

namespace RecipeScript

namespace Recipe

/-! ## Recipes of instructions -/

/-- The recipe in which instructions have been recorded one after the other. -/
def ofInstructions (instructions : List Instruction) : Recipe :=
  instructions.foldl record empty

theorem ofInstructions_append (instructions : List Instruction) (i : Instruction) :
    ofInstructions (instructions ++ [i]) = (ofInstructions instructions).record i :=
  List.foldl_append

theorem steps_ofInstructions (instructions : List Instruction) :
    (ofInstructions instructions).steps = numbered instructions := by
  induction instructions using List.reverseRecOn with
  | nil => rfl
  | append_singleton instructions i ih =>
      rw [ofInstructions_append, numbered_append, ← ih, ← length_numbered, ← ih]
      rfl

/-- What becomes of lines that are executed one after the other, and the recipe after them. -/
def executeEach (recipe : Recipe) : List String → List Outcome × Recipe
  | [] => ([], recipe)
  | line :: lines =>
    let (outcome, recipe) := recipe.execute line
    let (outcomes, recipe) := executeEach recipe lines
    (outcome :: outcomes, recipe)

theorem executeEach_sentences (recipe : Recipe) (instructions : List Instruction) :
    recipe.executeEach (instructions.map Instruction.sentence) =
      (instructions.mapIdx fun k i => .accepted ⟨recipe.steps.length + 1 + k, i⟩,
        instructions.foldl record recipe) := by
  induction instructions generalizing recipe with
  | nil => rfl
  | cons i instructions ih =>
      have hlength : (recipe.record i).steps.length = recipe.steps.length + 1 := by
        simp [record]
      have hnumber : ∀ k, recipe.steps.length + 1 + 1 + k = recipe.steps.length + 1 + (k + 1) := by
        intro k
        omega
      rw [List.map_cons, executeEach, execute_of_accepted i.ofLine_sentence]
      dsimp only
      rw [ih, hlength, List.mapIdx_cons, List.foldl_cons]
      simp only [hnumber]
      rfl

/-! ## The lines of a report -/

/-- A number, a colon and a blank, and what stands behind them. -/
def numberAndRest? (cs : List Char) : Option (String × String) :=
  match cs.takeWhile Char.isDigit, cs.dropWhile Char.isDigit with
  | digit :: digits, ':' :: ' ' :: rest => some (String.ofList (digit :: digits), String.ofList rest)
  | _, _ => none

/-- The number of a step and what stands behind it, in a line of a report that is about a step. -/
def stepOfLine? (line : String) : Option (String × String) :=
  match line.toList with
  | ' ' :: ' ' :: 'S' :: 't' :: 'e' :: 'p' :: ' ' :: cs => numberAndRest? cs
  | _ => none

/-- The steps that a report shows, from the first line to the last. -/
def stepsOfReport (report : String) : List (String × String) :=
  ((splitOn (· == '\n') report.toList).map String.ofList).filterMap stepOfLine?

theorem numberAndRest?_eq_some_iff {cs : List Char} {number rest : String} :
    numberAndRest? cs = some (number, rest) ↔
      IsWholeNumber number ∧ cs = number.toList ++ ':' :: ' ' :: rest.toList := by
  constructor
  · intro h
    unfold numberAndRest? at h
    split at h
    · rename_i digit digits tail htake hdrop
      obtain ⟨rfl, rfl⟩ := Prod.mk.inj (Option.some.inj h)
      unfold IsWholeNumber
      rw [String.toList_ofList, String.toList_ofList, ← hdrop, ← htake, List.takeWhile_append_dropWhile]
      refine ⟨⟨?_, fun c hc => List.mem_takeWhile_imp hc⟩, rfl⟩
      rw [htake]
      exact List.cons_ne_nil digit digits
    · cases h
  · rintro ⟨⟨hne, hdigits⟩, rfl⟩
    have hends : EndsDigits (':' :: ' ' :: rest.toList) := endsDigits_cons _ (by decide)
    obtain ⟨digit, digits, hnumber⟩ := List.exists_cons_of_ne_nil hne
    unfold numberAndRest?
    rw [takeWhile_isDigit hdigits hends, dropWhile_isDigit hdigits hends, hnumber]
    show some (String.ofList (digit :: digits), String.ofList rest.toList) = _
    rw [← hnumber, String.ofList_toList, String.ofList_toList]

/-- **A line is about a step exactly if it has the form of one.** -/
theorem stepOfLine?_eq_some_iff {line number rest : String} : stepOfLine? line = some (number, rest) ↔
    IsWholeNumber number ∧ line = "  Step " ++ number ++ ": " ++ rest := by
  have hform : ("  Step " ++ number ++ ": " ++ rest).toList =
      ' ' :: ' ' :: 'S' :: 't' :: 'e' :: 'p' :: ' ' :: (number.toList ++ ':' :: ' ' :: rest.toList) := by
    simp
  have htext : line = "  Step " ++ number ++ ": " ++ rest ↔ line.toList =
      ' ' :: ' ' :: 'S' :: 't' :: 'e' :: 'p' :: ' ' :: (number.toList ++ ':' :: ' ' :: rest.toList) := by
    rw [← hform, String.toList_inj]
  rw [htext]
  unfold stepOfLine?
  split
  · rename_i cs hline
    rw [numberAndRest?_eq_some_iff, hline]
    simp only [List.cons.injEq, true_and]
  · rename_i hline
    exact ⟨fun h => (by cases h), fun h => absurd h.2 (hline _)⟩

/-- The capital tells the lines of the steps from all others that begin with two blanks. -/
theorem stepOfLine?_eq_none {line : String} (h : line.toList[2]? ≠ some 'S') : stepOfLine? line = none := by
  unfold stepOfLine?
  split
  · rename_i hline
    rw [hline] at h
    exact absurd rfl h
  · rfl

theorem stepOfLine?_stepLine (s : Step) :
    stepOfLine? (stepLine s) = some (toString s.number, s.instruction.sentence) := by
  rw [stepOfLine?_eq_some_iff]
  refine ⟨isWholeNumber_toString s.number, ?_⟩
  simp [stepLine, Step.sentence, ← String.toList_inj]

theorem newline_not_mem_stepLine (s : Step) : '\n' ∉ (stepLine s).toList := by
  have hnumber : '\n' ∉ (toString s.number).toList := fun h =>
    absurd ((isWholeNumber_toString s.number).2 '\n' h) (by decide)
  have hsentence := s.instruction.newline_not_mem_sentence
  simp only [stepLine, Step.sentence, String.toList_append, List.mem_append, not_or]
  exact ⟨by decide, ⟨⟨by decide, hnumber⟩, by decide⟩, hsentence⟩

/-- A list of ingredients is written in small letters, commas and blanks. -/
theorem of_mem_names {as : List Ingredient} {c : Char}
    (h : c ∈ (", ".intercalate (as.map Vocabulary.name)).toList) : c = ',' ∨ c = ' ' ∨ IsPlain c := by
  rw [String.toList_intercalate] at h
  rcases mem_intercalate h with h | ⟨piece, hpiece, h⟩
  · rcases List.mem_cons.mp h with h | h
    · exact Or.inl h
    · exact Or.inr (Or.inl (List.mem_singleton.mp h))
  · rw [List.map_map] at hpiece
    obtain ⟨a, -, rfl⟩ := List.mem_map.mp hpiece
    exact Or.inr (Or.inr (Instruction.isPlain_name_ingredient a c h))

theorem ingredientLines_cases (recipe : Recipe) : recipe.ingredientLines = []
    ∨ recipe.ingredientLines =
      ["INGREDIENTS:", "  " ++ ", ".intercalate (recipe.ingredients.map Vocabulary.name), ""] := by
  unfold ingredientLines
  split
  · exact Or.inl rfl
  · exact Or.inr rfl

theorem newline_not_mem_ingredientLines (recipe : Recipe) :
    ∀ line ∈ recipe.ingredientLines, '\n' ∉ line.toList := by
  rcases recipe.ingredientLines_cases with hlines | hlines
  · rw [hlines]
    exact fun line h => absurd h List.not_mem_nil
  · rw [hlines]
    simp only [List.forall_mem_cons, List.not_mem_nil, false_implies, implies_true, and_true]
    refine ⟨by decide, ?_, by decide⟩
    rw [String.toList_append, List.mem_append, not_or]
    exact ⟨by decide, fun h => absurd (of_mem_names h) (by decide)⟩

theorem newline_not_mem_reportLines (recipe : Recipe) :
    ∀ line ∈ recipe.reportLines, '\n' ∉ line.toList := by
  intro line h
  simp only [reportLines, List.mem_append] at h
  rcases h with (((h | h) | h) | h) | h
  · revert line
    decide
  · exact recipe.newline_not_mem_ingredientLines line h
  · revert line
    decide
  · obtain ⟨s, -, rfl⟩ := List.mem_map.mp h
    exact newline_not_mem_stepLine s
  · revert line
    decide

theorem filterMap_ingredientLines (recipe : Recipe) :
    recipe.ingredientLines.filterMap stepOfLine? = [] := by
  rcases recipe.ingredientLines_cases with hlines | hlines
  · rw [hlines]
    rfl
  · have hnames : stepOfLine? ("  " ++ ", ".intercalate (recipe.ingredients.map Vocabulary.name)) = none := by
      refine stepOfLine?_eq_none fun h => ?_
      rw [String.toList_append] at h
      exact absurd (of_mem_names (List.mem_of_getElem? (i := 0) h)) (by decide)
    rw [hlines, List.filterMap_cons_none (stepOfLine?_eq_none (by decide)), List.filterMap_cons_none hnames,
      List.filterMap_cons_none (stepOfLine?_eq_none (by decide)), List.filterMap_nil]

theorem filterMap_reportLines (recipe : Recipe) : recipe.reportLines.filterMap stepOfLine? =
    recipe.steps.map fun s => (toString s.number, s.instruction.sentence) := by
  have htop : ["", rule, title, rule, ""].filterMap stepOfLine? = [] := by decide
  have hheading : ["INSTRUCTIONS:"].filterMap stepOfLine? = [] := by decide
  have hbottom : ["", rule, ""].filterMap stepOfLine? = [] := by decide
  have hsteps : (recipe.steps.map stepLine).filterMap stepOfLine? =
      recipe.steps.map fun s => (toString s.number, s.instruction.sentence) := by
    rw [List.filterMap_map, ← List.filterMap_eq_map]
    exact List.filterMap_congr fun s _ => stepOfLine?_stepLine s
  rw [reportLines, List.filterMap_append, List.filterMap_append, List.filterMap_append,
    List.filterMap_append, htop, hheading, hbottom, hsteps, filterMap_ingredientLines, List.append_nil]
  rfl

theorem report_of_nil {recipe : Recipe} (h : recipe.steps = []) : recipe.report = emptyMessage := by
  unfold report
  rw [h]

/-- The line feeds of a text divide it into the lines that it was put together from. -/
theorem map_splitOn_report {recipe : Recipe} (h : recipe.steps ≠ []) :
    (splitOn (· == '\n') recipe.report.toList).map String.ofList = recipe.reportLines := by
  have hne : recipe.reportLines.map String.toList ≠ [] := by simp [reportLines]
  have hlines : ∀ line ∈ recipe.reportLines.map String.toList, ∀ c ∈ line, (c == '\n') = false := by
    intro line hline c hc
    obtain ⟨line, hmem, rfl⟩ := List.mem_map.mp hline
    rw [beq_eq_false_iff_ne]
    rintro rfl
    exact recipe.newline_not_mem_reportLines line hmem hc
  have hback : ∀ line ∈ recipe.reportLines, (String.ofList ∘ String.toList) line = id line :=
    fun line _ => String.ofList_toList
  unfold report
  split
  · exact absurd (by assumption) h
  · rw [String.toList_intercalate, show "\n".toList = ['\n'] from rfl,
      splitOn_intercalate (by decide) hne hlines, List.map_map, List.map_congr_left hback, List.map_id]

/-- **A report shows the steps of its recipe**, and nothing that could be taken for another. -/
theorem stepsOfReport_report (recipe : Recipe) : stepsOfReport recipe.report =
    recipe.steps.map fun s => (toString s.number, s.instruction.sentence) := by
  by_cases hsteps : recipe.steps = []
  · rw [report_of_nil hsteps, hsteps]
    decide
  · unfold stepsOfReport
    rw [map_splitOn_report hsteps, filterMap_reportLines]

/-! ## Replaying -/

theorem map_number_numbered (instructions : List Instruction) :
    (numbered instructions).map Step.number = List.range' 1 instructions.length := by
  unfold numbered
  refine List.ext_getElem (by simp) fun k _ _ => ?_
  simp [Nat.add_comm]

theorem map_instruction_numbered (instructions : List Instruction) :
    (numbered instructions).map Step.instruction = instructions := by
  unfold numbered
  refine List.ext_getElem (by simp) fun k _ _ => ?_
  simp

theorem executeEach_stepsOfReport (instructions : List Instruction) :
    empty.executeEach ((stepsOfReport (ofInstructions instructions).report).map Prod.snd) =
      ((ofInstructions instructions).steps.map .accepted, ofInstructions instructions) := by
  have hlines : (stepsOfReport (ofInstructions instructions).report).map Prod.snd =
      instructions.map Instruction.sentence := by
    rw [stepsOfReport_report, steps_ofInstructions, List.map_map]
    conv_rhs => rw [← map_instruction_numbered instructions, List.map_map]
    rfl
  have houtcomes : (instructions.mapIdx fun k i => Outcome.accepted ⟨empty.steps.length + 1 + k, i⟩) =
      (numbered instructions).map .accepted := by
    unfold numbered
    refine List.ext_getElem (by simp) fun k _ _ => ?_
    simp [empty, Nat.add_comm]
  rw [hlines, executeEach_sentences, houtcomes, steps_ofInstructions]
  rfl

/--
**A report can be replayed.** The lines of its text that have the form of a step are one for each step,
numbered from one. What stands behind the numbers, executed line by line on a new recipe, is accepted
each time as the very step it was printed for, and ends in the recipe itself, with its ingredients and
both its reports. So recipes of instructions that have the same text are the same.
-/
theorem replay_report (instructions : List Instruction) :
    let recipe := ofInstructions instructions
    (∀ line number rest, stepOfLine? line = some (number, rest) ↔
        IsWholeNumber number ∧ line = "  Step " ++ number ++ ": " ++ rest)
      ∧ (stepsOfReport recipe.report).map Prod.fst = (List.range' 1 recipe.steps.length).map toString
      ∧ empty.executeEach ((stepsOfReport recipe.report).map Prod.snd) =
        (recipe.steps.map .accepted, recipe)
      ∧ ∀ others, (ofInstructions others).report = recipe.report → ofInstructions others = recipe := by
  intro recipe
  have hreplay := executeEach_stepsOfReport instructions
  refine ⟨fun line number rest => stepOfLine?_eq_some_iff, ?_, hreplay, fun others h => ?_⟩
  · have hsteps : recipe.steps = numbered instructions := steps_ofInstructions instructions
    rw [stepsOfReport_report, hsteps, length_numbered, ← map_number_numbered, List.map_map, List.map_map]
    rfl
  · -- both are what comes out when the lines of the one text are executed
    have hothers := executeEach_stepsOfReport others
    rw [h, hreplay] at hothers
    exact (congrArg Prod.snd hothers).symm

end Recipe

end RecipeScript
