import RecipeScript.Proofs.Decoding
import RecipeScript.Proofs.PhysicalLines
import RecipeScript.Proofs.Recognition
import RecipeScript.Proofs.ScriptRun

/-!
# What a run of a script says

The lines that a run visits are those that are neither blank nor comments; if the run halts at a
rejected line, it visits none after that. Each visited line is printed with its number and answered
with one message. The end depends on one thing only: whether the first rejected line halts the run.

`Script.Recites` says what is printed while lines are visited in turn, and `Script.IsCourse` puts the
whole run together, from the lines of the text alone. Whether there is a message for every line that
is printed depends on two tests that are made in different places: a line that is not skipped as
blank or as a comment must not turn out to ask for nothing when it is read. `recites_request` is where
the two have to agree.
-/

namespace RecipeScript

open Console (Request)

namespace Script

/-! ## Visited lines -/

/-- The lines that are neither blank nor comments, with their numbers. -/
def commandsFrom (number : Nat) : List String → List (Nat × String)
  | [] => []
  | line :: lines =>
    if isBlankOrComment line then commandsFrom (number + 1) lines
    else (number, line) :: commandsFrom (number + 1) lines

/-- What is said of a visited line, and the recipe after it. -/
inductive Answers (recipe : Recipe) (line : String) : Entry → Recipe → Prop where
  | accepted (i : Instruction) : Instruction.ofLine line = .ok (some i) →
      Answers recipe line (.out ("  → " ++ ("✓ " ++ (recipe.nextStep i).sentence))) (recipe.record i)
  | rejected (fault : CommandFault) : Instruction.ofLine line = .error fault →
      Answers recipe line (.err ("  → " ++ ("Error: " ++ fault.message))) recipe

/-- What is printed while lines are visited in turn: each line with its number, and right after it
the one message about it. -/
inductive Recites : Recipe → List (Nat × String) → Transcript → Recipe → Prop where
  | done (recipe : Recipe) : Recites recipe [] [] recipe
  | visit {recipe after last : Recipe} {number : Nat} {line : String} {visited : List (Nat × String)}
      {answer : Entry} {rest : Transcript} :
      Answers recipe line answer after → Recites after visited rest last →
      Recites recipe ((number, line) :: visited)
        (.out ("[Line " ++ toString number ++ "] " ++ trim line) :: answer :: rest) last

section Visits

variable {number n : Nat} {line : String} {lines : List String}

theorem mem_commandsFrom_iff : (n, line) ∈ commandsFrom number lines ↔
    ∃ k, n = number + k ∧ lines[k]? = some line ∧ isBlankOrComment line = false := by
  induction lines generalizing number with
  | nil => simp [commandsFrom]
  | cons head lines ih =>
      have htail : (∃ k, n = number + k ∧ (head :: lines)[k]? = some line ∧ isBlankOrComment line = false) ↔
          (n = number ∧ head = line ∧ isBlankOrComment line = false)
            ∨ (n, line) ∈ commandsFrom (number + 1) lines := by
        rw [ih]
        constructor
        · rintro ⟨k, hn, hline, hblank⟩
          cases k with
          | zero => exact Or.inl ⟨hn, Option.some.inj hline, hblank⟩
          | succ k => exact Or.inr ⟨k, by omega, hline, hblank⟩
        · rintro (⟨hn, rfl, hblank⟩ | ⟨k, hn, hline, hblank⟩)
          · exact ⟨0, hn, rfl, hblank⟩
          · exact ⟨k + 1, by omega, hline, hblank⟩
      rw [htail, commandsFrom]
      split
      · rename_i hblank
        constructor
        · exact Or.inr
        · rintro (⟨-, rfl, hnot⟩ | h)
          · rw [hblank] at hnot
            cases hnot
          · exact h
      · rename_i hblank
        rw [List.mem_cons, Prod.mk.injEq]
        constructor
        · rintro (⟨rfl, rfl⟩ | h)
          · exact Or.inl ⟨rfl, rfl, by simpa using hblank⟩
          · exact Or.inr h
        · rintro (⟨rfl, rfl, -⟩ | h)
          · exact Or.inl ⟨rfl, rfl⟩
          · exact Or.inr h

theorem pairwise_commandsFrom (number : Nat) (lines : List String) :
    (commandsFrom number lines).Pairwise fun a b => a.1 < b.1 := by
  induction lines generalizing number with
  | nil => exact List.Pairwise.nil
  | cons line lines ih =>
      rw [commandsFrom]
      split
      · exact ih (number + 1)
      · refine List.pairwise_cons.mpr ⟨fun later hlater => ?_, ih (number + 1)⟩
        obtain ⟨k, hk, -, -⟩ := mem_commandsFrom_iff.mp hlater
        show number < later.1
        omega

theorem isRejected_request_iff :
    isRejected (request line) = true ↔ ∃ fault, Instruction.ofLine line = .error fault := by
  unfold request
  split
  · rename_i hblank
    rw [Instruction.ofLine_eq_ok_none_iff.mpr hblank]
    constructor
    · intro h
      cases h
    · rintro ⟨fault, h⟩
      cases h
  · rw [isRejected, Instruction.ofLine_trim]
    cases Instruction.ofLine line with
    | error fault => exact ⟨fun _ => ⟨fault, rfl⟩, fun _ => rfl⟩
    | ok asked =>
        constructor
        · intro h
          cases h
        · rintro ⟨fault, h⟩
          cases h

theorem mem_rejectedFrom_iff : n ∈ rejectedFrom number (lines.map request) ↔
    ∃ k line, n = number + k ∧ lines[k]? = some line ∧ isRejected (request line) = true := by
  induction lines generalizing number with
  | nil => simp [rejectedFrom]
  | cons head lines ih =>
      have htail : (∃ k line, n = number + k ∧ (head :: lines)[k]? = some line
            ∧ isRejected (request line) = true) ↔
          (n = number ∧ isRejected (request head) = true)
            ∨ n ∈ rejectedFrom (number + 1) (lines.map request) := by
        rw [ih]
        constructor
        · rintro ⟨k, line, hn, hline, hrejected⟩
          cases k with
          | zero =>
              obtain rfl := Option.some.inj hline
              exact Or.inl ⟨hn, hrejected⟩
          | succ k => exact Or.inr ⟨k, line, by omega, hline, hrejected⟩
        · rintro (⟨hn, hrejected⟩ | ⟨k, line, hn, hline, hrejected⟩)
          · exact ⟨0, head, hn, rfl, hrejected⟩
          · exact ⟨k + 1, line, by omega, hline, hrejected⟩
      rw [htail, List.map_cons, rejectedFrom]
      split
      · rename_i hrejected
        rw [List.mem_cons]
        exact or_congr ⟨fun h => ⟨h, hrejected⟩, And.left⟩ Iff.rfl
      · rename_i hrejected
        exact ⟨Or.inr, fun h => h.resolve_left fun hhead => hrejected hhead.2⟩

theorem pairwise_rejectedFrom (number : Nat) (lines : List String) :
    (rejectedFrom number (lines.map request)).Pairwise (· < ·) := by
  induction lines generalizing number with
  | nil => exact List.Pairwise.nil
  | cons line lines ih =>
      rw [List.map_cons, rejectedFrom]
      split
      · refine List.pairwise_cons.mpr ⟨fun later hlater => ?_, ih (number + 1)⟩
        obtain ⟨k, -, hk, -, -⟩ := mem_rejectedFrom_iff.mp hlater
        omega
      · exact ih (number + 1)

/-- **A visited line is answered.** That it was not skipped means that it asks for something. -/
theorem exists_answers (recipe : Recipe) (h : isBlankOrComment line = false) :
    ∃ answer, Answers recipe line answer (Request.effect recipe (.statement (trim line)))
      ∧ verdict (recipe.execute (trim line)).1 = [answer] := by
  rw [Request.effect]
  cases hline : Instruction.ofLine line with
  | error fault =>
      rw [Recipe.execute_of_rejected (by rw [Instruction.ofLine_trim, hline])]
      exact ⟨_, .rejected fault hline, rfl⟩
  | ok asked =>
      cases asked with
      | none =>
          rw [Instruction.ofLine_eq_ok_none_iff, h] at hline
          cases hline
      | some i =>
          rw [Recipe.execute_of_accepted (by rw [Instruction.ofLine_trim, hline])]
          exact ⟨_, .accepted i hline, rfl⟩

/-- **What a run prints of its lines.** -/
theorem recites_request (format : ReportFormat) (recipe : Recipe) (number : Nat) (lines : List String) :
    Recites recipe (commandsFrom number lines)
      (tellFrom number (exchanges format recipe (lines.map request)))
      (follow recipe (lines.map request)) := by
  induction lines generalizing recipe number with
  | nil => exact .done recipe
  | cons line lines ih =>
      rw [commandsFrom, List.map_cons, exchanges, tellFrom]
      by_cases hblank : isBlankOrComment line = true
      · have hrequest : request line = .nothing := if_pos hblank
        rw [if_pos hblank, hrequest]
        exact ih recipe (number + 1)
      · have hrequest : request line = .statement (trim line) := if_neg hblank
        obtain ⟨answer, hanswer, hverdict⟩ :=
          exists_answers recipe (by simpa using hblank : isBlankOrComment line = false)
        rw [if_neg hblank, hrequest, tell_statement, hverdict]
        exact .visit hanswer (ih _ (number + 1))

end Visits

/-! ## The end of a run -/

/-- The lines that a run looks at: all, unless a rejected line halts it. -/
theorem requests_cases (options : ScriptOptions) (lines : List String) :
    (options.stopOnError = true ∧ ∃ front line back, lines = front ++ line :: back
      ∧ (∀ l ∈ front, isRejected (request l) = false) ∧ isRejected (request line) = true
      ∧ requests options lines = (front ++ [line]).map request)
    ∨ ((options.stopOnError = true → ∀ l ∈ lines, isRejected (request l) = false)
      ∧ requests options lines = lines.map request) := by
  by_cases hstop : options.stopOnError = true
  · induction lines with
    | nil => exact Or.inr ⟨fun _ l hl => absurd hl List.not_mem_nil, requests_nil options⟩
    | cons line lines ih =>
        by_cases hrejected : isRejected (request line) = true
        · exact Or.inl ⟨hstop, [], line, lines, rfl, fun l hl => absurd hl List.not_mem_nil, hrejected,
            requests_cons_of_halt lines hstop hrejected⟩
        · rw [Bool.not_eq_true] at hrejected
          have hcons := requests_cons_of_not options lines hrejected
          rcases ih with ⟨-, front, halting, back, rfl, hfront, hhalting, hrequests⟩ | ⟨hnone, hrequests⟩
          · refine Or.inl ⟨hstop, line :: front, halting, back, rfl, ?_, hhalting, ?_⟩
            · exact List.forall_mem_cons.mpr ⟨hrejected, hfront⟩
            · rw [hcons, hrequests]
              rfl
          · refine Or.inr ⟨fun _ => List.forall_mem_cons.mpr ⟨hrejected, hnone hstop⟩, ?_⟩
            rw [hcons, hrequests, List.map_cons]
  · refine Or.inr ⟨fun h => absurd h hstop, ?_⟩
    unfold requests
    rw [if_neg hstop]

/-- Line `n` of the text is neither blank nor a comment, and no command either. -/
def IsRejectedAt (text : String) (n : Nat) : Prop :=
  ∃ line fault, IsLine text n line ∧ Instruction.ofLine line = .error fault

/-- Line `n` of the text is the first that is rejected. -/
def IsFirstRejected (text : String) (n : Nat) : Prop :=
  IsRejectedAt text n ∧ ∀ m, m < n → ¬ IsRejectedAt text m

/-- What a run of a text comes to: `said` is what it prints of the lines it visits, and `closing` what
it prints after them. -/
structure IsCourse (text : String) (options : ScriptOptions) (recipe : Recipe)
    (visited : List (Nat × String)) (said closing : Transcript) (last : Recipe)
    (result : ScriptResult) : Prop where
  /-- Blank lines and comments are skipped, and nothing is visited after a line that halts the run. -/
  visited_iff : ∀ n line, (n, line) ∈ visited ↔ IsLine text n line ∧ isBlankOrComment line = false
    ∧ (options.stopOnError = true → ∀ m, m < n → ¬ IsRejectedAt text m)
  ordered : visited.Pairwise fun a b => a.1 < b.1
  recites : Recites recipe visited said last
  halted_iff : ∀ n, result = .halted n ↔ options.stopOnError = true ∧ IsFirstRejected text n
  closing_of_halted : ∀ n, result = .halted n →
    closing = [.err ("\nExecution stopped at line " ++ toString n)]
  closing_of_completed : ∀ failed, result = .completed failed →
    closing = [.out (last.render options.format)]
  failed_ordered : ∀ failed, result = .completed failed → failed.Pairwise (· < ·)
  mem_failed_iff : ∀ failed, result = .completed failed → ∀ n, n ∈ failed ↔ IsRejectedAt text n

section Ends

variable {text : String} {n : Nat}

theorem isRejectedAt_iff : IsRejectedAt text n ↔
    ∃ k line, n = k + 1 ∧ (linesOf text)[k]? = some line ∧ isRejected (request line) = true := by
  constructor
  · rintro ⟨line, fault, hline, hfault⟩
    obtain ⟨k, hn, hk⟩ := hline.exists_getElem?
    exact ⟨k, line, hn, hk, isRejected_request_iff.mpr ⟨fault, hfault⟩⟩
  · rintro ⟨k, line, rfl, hk, hrejected⟩
    obtain ⟨fault, hfault⟩ := isRejected_request_iff.mp hrejected
    exact ⟨line, fault, getElem?_linesOf_iff.mp hk, hfault⟩

theorem isFirstRejected_unique {m : Nat} (hn : IsFirstRejected text n) (hm : IsFirstRejected text m) :
    n = m := by
  obtain hlt | heq | hlt := Nat.lt_trichotomy n m
  · exact absurd hn.1 (hm.2 n hlt)
  · exact heq
  · exact absurd hm.1 (hn.2 m hlt)

/-- The line after lines that are not rejected is the first that is. -/
theorem isFirstRejected_of_split {front back : List String} {line : String}
    (hlines : linesOf text = front ++ line :: back)
    (hfront : ∀ l ∈ front, isRejected (request l) = false) (hline : isRejected (request line) = true) :
    IsFirstRejected text (front.length + 1) := by
  constructor
  · refine isRejectedAt_iff.mpr ⟨front.length, line, rfl, ?_, hline⟩
    rw [hlines, List.getElem?_append_right (le_refl _), Nat.sub_self, List.getElem?_cons_zero]
  · intro m hm hrejected
    obtain ⟨k, l, rfl, hk, hl⟩ := isRejectedAt_iff.mp hrejected
    rw [hlines, List.getElem?_append_left (by omega)] at hk
    rw [hfront l (List.mem_of_getElem? hk)] at hl
    cases hl

theorem isCourse_of_halted {options : ScriptOptions} (recipe : Recipe) {front back : List String}
    {line : String} (hstop : options.stopOnError = true) (hlines : linesOf text = front ++ line :: back)
    (hfront : ∀ l ∈ front, isRejected (request l) = false) (hline : isRejected (request line) = true) :
    IsCourse text options recipe (commandsFrom 1 (front ++ [line]))
      (tellFrom 1 (exchanges options.format recipe ((front ++ [line]).map request)))
      [halt (front.length + 1)] (follow recipe ((front ++ [line]).map request))
      (.halted (front.length + 1)) := by
  have hfirst := isFirstRejected_of_split hlines hfront hline
  have hsame : ∀ k, k ≤ front.length → (front ++ [line])[k]? = (linesOf text)[k]? := by
    intro k hk
    have hlength : k < (front ++ [line]).length := by
      rw [List.length_append, List.length_singleton]
      omega
    rw [hlines, List.append_cons front line back, List.getElem?_append_left hlength]
  constructor
  case visited_iff =>
    intro n l
    rw [mem_commandsFrom_iff]
    constructor
    · rintro ⟨k, rfl, hk, hblank⟩
      have hlength : k < (front ++ [line]).length := (List.getElem?_eq_some_iff.mp hk).1
      rw [List.length_append, List.length_singleton] at hlength
      rw [hsame k (by omega)] at hk
      refine ⟨?_, hblank, fun _ m hm => hfirst.2 m (by omega)⟩
      rw [Nat.add_comm]
      exact getElem?_linesOf_iff.mp hk
    · rintro ⟨hl, hblank, hbefore⟩
      obtain ⟨k, rfl, hk⟩ := hl.exists_getElem?
      -- past the first rejected line nothing is visited
      have hle : k ≤ front.length := by
        by_contra hlt
        exact hbefore hstop (front.length + 1) (by omega) hfirst.1
      exact ⟨k, Nat.add_comm k 1, by rw [hsame k hle, hk], hblank⟩
  case ordered => exact pairwise_commandsFrom 1 _
  case recites => exact recites_request options.format recipe 1 _
  case halted_iff =>
    intro n
    rw [ScriptResult.halted.injEq]
    constructor
    · rintro rfl
      exact ⟨hstop, hfirst⟩
    · exact fun h => isFirstRejected_unique hfirst h.2
  case closing_of_halted =>
    intro n hn
    obtain rfl := ScriptResult.halted.inj hn
    rfl
  all_goals exact fun failed h => by cases h

theorem isCourse_of_completed {options : ScriptOptions} (recipe : Recipe)
    (hnone : options.stopOnError = true → ∀ l ∈ linesOf text, isRejected (request l) = false) :
    IsCourse text options recipe (commandsFrom 1 (linesOf text))
      (tellFrom 1 (exchanges options.format recipe ((linesOf text).map request)))
      [.out ((follow recipe ((linesOf text).map request)).render options.format)]
      (follow recipe ((linesOf text).map request))
      (.completed (rejectedFrom 1 ((linesOf text).map request))) := by
  have hnever : options.stopOnError = true → ∀ m, ¬ IsRejectedAt text m := by
    intro hstop m hrejected
    obtain ⟨k, l, -, hk, hl⟩ := isRejectedAt_iff.mp hrejected
    rw [hnone hstop l (List.mem_of_getElem? hk)] at hl
    cases hl
  constructor
  case visited_iff =>
    intro n l
    rw [mem_commandsFrom_iff]
    constructor
    · rintro ⟨k, rfl, hk, hblank⟩
      refine ⟨?_, hblank, fun hstop m _ => hnever hstop m⟩
      rw [Nat.add_comm]
      exact getElem?_linesOf_iff.mp hk
    · rintro ⟨hl, hblank, -⟩
      obtain ⟨k, rfl, hk⟩ := hl.exists_getElem?
      exact ⟨k, Nat.add_comm k 1, hk, hblank⟩
  case ordered => exact pairwise_commandsFrom 1 _
  case recites => exact recites_request options.format recipe 1 _
  case halted_iff =>
    intro n
    constructor
    · intro h
      cases h
    · exact fun ⟨hstop, hfirst⟩ => absurd hfirst.1 (hnever hstop n)
  case closing_of_halted => exact fun n h => (by cases h)
  case closing_of_completed => exact fun failed _ => rfl
  case failed_ordered =>
    intro failed h
    obtain rfl := ScriptResult.completed.inj h
    exact pairwise_rejectedFrom 1 _
  case mem_failed_iff =>
    intro failed h n
    obtain rfl := ScriptResult.completed.inj h
    rw [mem_rejectedFrom_iff, isRejectedAt_iff]
    simp only [Nat.add_comm 1]

end Ends

/-- A run of lines, by the two ways in which it can end. -/
theorem exists_isCourse (options : ScriptOptions) (recipe : Recipe) (text : String) :
    ∃ visited said closing last result, IsCourse text options recipe visited said closing last result
      ∧ executeFrom options recipe [] 1 (linesOf text) = ⟨said ++ closing, last, result⟩ := by
  rw [executeFrom_eq, course]
  rcases requests_cases options (linesOf text) with
    ⟨hstop, front, line, back, hlines, hfront, hline, hrequests⟩ | ⟨hnone, hrequests⟩
  · rw [hrequests]
    refine ⟨_, _, _, _, _, isCourse_of_halted recipe hstop hlines hfront hline, ?_⟩
    have hany : ((front ++ [line]).map request).any isRejected = true := by
      rw [List.any_eq_true]
      exact ⟨request line, by simp, hline⟩
    unfold closing
    rw [hstop, hany, Bool.and_self, if_pos rfl, List.length_map, List.length_append,
      List.length_singleton, show 1 + (front.length + 1) - 1 = front.length + 1 by omega]
  · rw [hrequests]
    refine ⟨_, _, _, _, _, isCourse_of_completed recipe hnone, ?_⟩
    have hany : ¬ (options.stopOnError && ((linesOf text).map request).any isRejected) = true := by
      rw [Bool.and_eq_true, List.any_eq_true]
      rintro ⟨hstop, q, hq, hrejected⟩
      obtain ⟨l, hl, rfl⟩ := List.mem_map.mp hq
      rw [hnone hstop l hl] at hrejected
      cases hrejected
    unfold closing
    rw [if_neg hany, List.nil_append]

theorem run_of_error {files : Files} {path : String} {cause : ReadFault} (options : ScriptOptions)
    (recipe : Recipe) (h : files.readText path = .error cause) :
    run files options recipe path = ([], recipe, .error (.ofRead path cause)) := by
  unfold run
  rw [h]

theorem ofRead_of_ne {path : String} {cause : ReadFault} (h : cause ≠ .notFound) :
    RunFault.ofRead path cause = .unreadable path cause := by
  cases cause with
  | notFound => exact absurd rfl h
  | _ => rfl

/--
**The course of a run.** A script that is missing, cannot be read or is no text gives the fault that
says so; nothing is printed and the recipe stays as it is. Any other script is run: after the header,
the lines that are neither blank nor comments are printed in order, each with its number and one
message. The first rejected line halts the run if it is to; otherwise the recipe comes last, and the
numbers of all rejected lines are the result.
-/
theorem run_account (files : Files) (options : ScriptOptions) (recipe : Recipe) (path : String) :
    (files.read path = .error .notFound →
      run files options recipe path = ([], recipe, .error (.notFound path)))
    ∧ (∀ cause, cause ≠ .notFound → files.read path = .error cause →
      run files options recipe path = ([], recipe, .error (.unreadable path cause)))
    ∧ (∀ bytes, files.read path = .ok bytes → (∀ text, bytes ≠ Utf8.encode text) →
      run files options recipe path = ([], recipe, .error (.unreadable path .notText)))
    ∧ ∀ text, files.read path = .ok (Utf8.encode text) → ∃ visited said closing last result,
      IsCourse text options recipe visited said closing last result
        ∧ run files options recipe path =
          (.out ("Executing recipe from: " ++ path ++ "\n") :: said ++ closing, last, .ok result) := by
  refine ⟨fun h => ?_, fun cause hcause h => ?_, fun bytes h hbytes => ?_, fun text h => ?_⟩
  · exact run_of_error options recipe (readText_of_error h)
  · rw [run_of_error options recipe (readText_of_error h), ofRead_of_ne hcause]
  · exact run_of_error options recipe (readText_of_not_text h hbytes)
  · obtain ⟨visited, said, closing, last, result, hcourse, hrun⟩ := exists_isCourse options recipe text
    refine ⟨visited, said, closing, last, result, hcourse, ?_⟩
    unfold run
    rw [readText_of_read h]
    dsimp only
    rw [runText, hrun]
    rfl

/-- The account of a script with an accepted line, a blank line, a comment, and a rejected line that
halts the run in front of another one. -/
theorem run_account_of_five_lines :
    let text := "mix flour and eggs\r\n \n# then\nfry eggs\nbake for 5 minutes"
    let files : Files := .ofTexts [("cake.recipe", text)]
    files.read "cake.recipe" = .ok (Utf8.encode text)
      ∧ ∃ visited said closing last result,
        IsCourse text ⟨true, .text⟩ Recipe.empty visited said closing last result
          ∧ run files ⟨true, .text⟩ Recipe.empty "cake.recipe" =
            (.out "Executing recipe from: cake.recipe\n" :: said ++ closing, last, .ok result) :=
  ⟨rfl, (run_account _ _ _ _).2.2.2 _ rfl⟩

end Script

end RecipeScript
