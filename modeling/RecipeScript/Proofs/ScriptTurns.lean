import RecipeScript.Proofs.Agreement
import RecipeScript.Proofs.BatchRun

/-!
# A script run, turn by turn

`turns` tells what becomes of lines that are executed one after the other, whoever executes them. A
script that is never halted prints all turns of its lines and then the recipe (`run_of_completed`);
one that is halted prints the turns up to the rejected line and that it stops there (`run_of_halted`).
So what two runs have in common can be read off the turns, and those follow the lines: they can be
taken apart where the lines are (`turns_append`), and lines with larger numbers have the same turns
with larger numbers (`turns_add`).
-/

namespace RecipeScript

open Console (Request)

/-! ## Lines one after the other -/

/-- The same turn in a text with so many more lines in front. -/
def Turn.later (count : Nat) (turn : Turn) : Turn :=
  { turn with number := turn.number + count }

section Lines

variable {recipe : Recipe} {number count : Nat} {front back lines : List String}

theorem executeAll_append (recipe : Recipe) (front back : List String) :
    executeAll recipe (front ++ back) = executeAll (executeAll recipe front) back :=
  List.foldl_append

theorem turns_append (recipe : Recipe) (number : Nat) (front back : List String) :
    turns recipe number (front ++ back) =
      turns recipe number front ++ turns (executeAll recipe front) (number + front.length) back := by
  induction front generalizing recipe number with
  | nil => rfl
  | cons line front ih =>
      have hnumber : number + (line :: front).length = number + 1 + front.length := by
        rw [List.length_cons]
        omega
      rw [List.cons_append, turns, ih, turns, List.append_assoc, hnumber]
      rfl

theorem turns_add (recipe : Recipe) (number count : Nat) (lines : List String) :
    turns recipe (number + count) lines = (turns recipe number lines).map (Turn.later count) := by
  induction lines generalizing recipe number with
  | nil => rfl
  | cons line lines ih =>
      rw [turns, turns, List.map_append, List.map_map, ← ih, Nat.add_right_comm number count 1]
      rfl

/-- The instructions of those lines that are accepted. -/
def acceptedIn (lines : List String) : List Instruction :=
  lines.filterMap fun line => (Request.statement line).instruction?

theorem execute_eq_record (recipe : Recipe) (line : String) : (recipe.execute (trim line)).2 =
    (Request.statement line).instruction?.elim recipe recipe.record := by
  have hsame : (recipe.execute (trim line)).2 = (Request.statement line).effect recipe := by
    unfold Request.effect Recipe.execute
    rw [Instruction.ofLine_trim]
  rw [hsame]
  cases hline : (Request.statement line).instruction? with
  | none => exact Request.effect_of_none hline (by simp)
  | some i => exact Request.effect_of_instruction hline

/-- **Executing lines records the instructions of those that are accepted.** -/
theorem executeAll_eq (recipe : Recipe) (lines : List String) :
    executeAll recipe lines = (acceptedIn lines).foldl Recipe.record recipe := by
  induction lines generalizing recipe with
  | nil => rfl
  | cons line lines ih =>
      show executeAll (recipe.execute (trim line)).2 lines = _
      unfold acceptedIn at ih ⊢
      rw [ih, execute_eq_record, List.filterMap_cons]
      cases (Request.statement line).instruction? with
      | none => rfl
      | some i => rfl

theorem steps_prefix_executeAll (recipe : Recipe) (lines : List String) :
    recipe.steps <+: (executeAll recipe lines).steps := by
  rw [← follow_request]
  refine steps_prefix_follow (fun q hq => ?_) recipe
  obtain ⟨line, -, rfl⟩ := List.mem_map.mp hq
  unfold Script.request
  split <;> simp

end Lines

namespace Script

/-! ## Rejected lines -/

/-- None of these lines is rejected. -/
def AreAccepted (lines : List String) : Prop :=
  ∀ line ∈ lines, isRejected (request line) = false

section Rejected

variable {recipe : Recipe} {number count : Nat} {front back lines : List String} {line : String}
  {options : ScriptOptions}

theorem accepted_or_split (lines : List String) : AreAccepted lines ∨ ∃ front line back,
    lines = front ++ line :: back ∧ AreAccepted front ∧ isRejected (request line) = true := by
  rcases requests_cases ⟨true, .text⟩ lines with
    ⟨-, front, line, back, hlines, hfront, hline, -⟩ | ⟨hnone, -⟩
  · exact Or.inr ⟨front, line, back, hlines, hfront, hline⟩
  · exact Or.inl (hnone rfl)

theorem rejectedFrom_append (number : Nat) (front back : List Request) :
    rejectedFrom number (front ++ back) =
      rejectedFrom number front ++ rejectedFrom (number + front.length) back := by
  induction front generalizing number with
  | nil => rfl
  | cons q front ih =>
      have hnumber : number + (q :: front).length = number + 1 + front.length := by
        rw [List.length_cons]
        omega
      rw [List.cons_append, rejectedFrom, rejectedFrom, ih, hnumber]
      split
      · rfl
      · rfl

theorem rejectedFrom_add (number count : Nat) (qs : List Request) :
    rejectedFrom (number + count) qs = (rejectedFrom number qs).map (· + count) := by
  induction qs generalizing number with
  | nil => rfl
  | cons q qs ih =>
      rw [rejectedFrom, rejectedFrom, Nat.add_right_comm number count 1, ih]
      split
      · rfl
      · rfl

theorem rejectedFrom_of_accepted (number : Nat) (h : AreAccepted lines) :
    rejectedFrom number (lines.map request) = [] := by
  refine List.eq_nil_iff_forall_not_mem.mpr fun n hn => ?_
  obtain ⟨k, line, -, hline, hrejected⟩ := mem_rejectedFrom_iff.mp hn
  rw [h line (List.mem_of_getElem? hline)] at hrejected
  cases hrejected

/-- The first rejected line comes first among the rejected ones. -/
theorem rejectedFrom_of_split (number : Nat) (hfront : AreAccepted front)
    (hline : isRejected (request line) = true) :
    rejectedFrom number ((front ++ line :: back).map request) =
      (number + front.length) :: rejectedFrom (number + front.length + 1) (back.map request) := by
  rw [List.map_append, rejectedFrom_append, rejectedFrom_of_accepted number hfront, List.length_map,
    List.map_cons, rejectedFrom, if_pos hline, List.nil_append]

/-- There is no complaint about accepted lines. -/
theorem isErr_eq_false_of_accepted {turn : Turn} (h : AreAccepted lines)
    (hturn : turn ∈ turns recipe number lines) : turn.message.isErr = false := by
  have hnone := rejectedFrom_of_accepted number h
  rw [rejectedFrom_request recipe, List.map_eq_nil_iff, List.filter_eq_nil_iff] at hnone
  exact Bool.eq_false_iff.mpr (hnone turn hturn)

/-- A rejected line gets a complaint and leaves the recipe as it is. -/
theorem turn_of_rejected (recipe : Recipe) (number : Nat) (h : isRejected (request line) = true) :
    ∃ fault, Instruction.ofLine line = .error fault
      ∧ turns recipe number [line] = [⟨number, trim line, .err fault.announcement⟩]
      ∧ executeAll recipe [line] = recipe := by
  obtain ⟨fault, hfault⟩ := isRejected_request_iff.mp h
  have hexecute : recipe.execute (trim line) = (.rejected fault, recipe) :=
    Recipe.execute_of_rejected (by rw [Instruction.ofLine_trim, hfault])
  refine ⟨fault, hfault, ?_, ?_⟩
  · rw [turns, hexecute]
    rfl
  · show (recipe.execute (trim line)).2 = recipe
    rw [hexecute]

/-! ## Runs -/

/-- Lines of which none halts the run: all turns are printed, and then the recipe. -/
theorem executeFrom_of_completed (recipe : Recipe) (h : options.stopOnError = true → AreAccepted lines) :
    executeFrom options recipe [] 1 lines =
      ⟨(turns recipe 1 lines).flatMap Turn.printed
          ++ [.out ((executeAll recipe lines).render options.format)],
        executeAll recipe lines, .completed (rejectedFrom 1 (lines.map request))⟩ := by
  have hany : ¬ (options.stopOnError && (lines.map request).any isRejected) = true := by
    rw [Bool.and_eq_true, List.any_eq_true]
    rintro ⟨hstop, q, hq, hrejected⟩
    obtain ⟨line, hline, rfl⟩ := List.mem_map.mp hq
    rw [h hstop line hline] at hrejected
    cases hrejected
  have hrequests : requests options lines = lines.map request := by
    rcases requests_cases options lines with
      ⟨hstop, front, line, back, rfl, -, hline, -⟩ | ⟨-, hrequests⟩
    · rw [h hstop line (by simp)] at hline
      cases hline
    · exact hrequests
  rw [executeFrom_eq, course, hrequests, follow_request, tellFrom_request, closing, if_neg hany,
    List.nil_append]

theorem requests_of_halted (back : List String) (hstop : options.stopOnError = true)
    (hfront : AreAccepted front) (hline : isRejected (request line) = true) :
    requests options (front ++ line :: back) = (front ++ [line]).map request := by
  induction front with
  | nil => exact requests_cons_of_halt back hstop hline
  | cons other front ih =>
      rw [List.cons_append, requests_cons_of_not options _ (hfront other List.mem_cons_self),
        ih fun l hl => hfront l (List.mem_cons_of_mem other hl)]
      rfl

/-- Lines of which one halts the run: the turns up to that one are printed, and that it stops there. -/
theorem executeFrom_of_halted (recipe : Recipe) (back : List String) (hstop : options.stopOnError = true)
    (hfront : AreAccepted front) (hline : isRejected (request line) = true) :
    executeFrom options recipe [] 1 (front ++ line :: back) =
      ⟨(turns recipe 1 (front ++ [line])).flatMap Turn.printed ++ [halt (front.length + 1)],
        executeAll recipe front, .halted (front.length + 1)⟩ := by
  obtain ⟨-, -, -, hrecipe⟩ := turn_of_rejected (executeAll recipe front) 1 hline
  have hany : (options.stopOnError && ((front ++ [line]).map request).any isRejected) = true := by
    rw [hstop, Bool.true_and, List.any_eq_true]
    exact ⟨request line, by simp, hline⟩
  have hnumber : 1 + ((front ++ [line]).map request).length - 1 = front.length + 1 := by
    rw [List.length_map, List.length_append, List.length_singleton]
    omega
  rw [executeFrom_eq, course, requests_of_halted back hstop hfront hline, follow_request, tellFrom_request,
    closing, if_pos hany, hnumber, executeAll_append, hrecipe]

theorem run_of_text {files : Files} {path text : String} (options : ScriptOptions) (recipe : Recipe)
    (hread : files.read path = .ok (Utf8.encode text)) : run files options recipe path =
      (header path :: (executeFrom options recipe [] 1 (linesOf text)).transcript,
        (executeFrom options recipe [] 1 (linesOf text)).recipe,
        .ok (executeFrom options recipe [] 1 (linesOf text)).result) := by
  unfold run
  rw [readText_of_read hread]
  rfl

/-- **A run that no line halts** prints all turns and then the recipe. -/
theorem run_of_completed {files : Files} {path text : String} (recipe : Recipe)
    (hread : files.read path = .ok (Utf8.encode text))
    (h : options.stopOnError = true → AreAccepted (linesOf text)) :
    run files options recipe path =
      (header path :: ((turns recipe 1 (linesOf text)).flatMap Turn.printed
          ++ [.out ((executeAll recipe (linesOf text)).render options.format)]),
        executeAll recipe (linesOf text),
        .ok (.completed (rejectedFrom 1 ((linesOf text).map request)))) := by
  rw [run_of_text options recipe hread, executeFrom_of_completed recipe h]

/-- **A run that a line halts** prints the turns up to that line and says that it stops there. -/
theorem run_of_halted {files : Files} {path text : String} (recipe : Recipe)
    (hread : files.read path = .ok (Utf8.encode text)) (hlines : linesOf text = front ++ line :: back)
    (hstop : options.stopOnError = true) (hfront : AreAccepted front)
    (hline : isRejected (request line) = true) :
    run files options recipe path =
      (header path :: ((turns recipe 1 (front ++ [line])).flatMap Turn.printed
          ++ [halt (front.length + 1)]),
        executeAll recipe front, .ok (.halted (front.length + 1))) := by
  rw [run_of_text options recipe hread, hlines, executeFrom_of_halted recipe back hstop hfront hline]

end Rejected

end Script

end RecipeScript
