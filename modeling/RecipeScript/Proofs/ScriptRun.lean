import RecipeScript.Proofs.Blanks
import RecipeScript.Proofs.Exchange
import RecipeScript.Script

/-!
# What a script run comes to

A script is read line by line, and what a line asks for does not depend on the recipe. So the lines
of a script are a list of requests, cut off after the first rejected one if the run halts there; the
run meets them one after the other, prints each with the number of its line, and ends in one of two
ways. `executeFrom_eq` says all of that.
-/

namespace RecipeScript

open Console (Request)

/-- A message as a script prints it below the line that it is about. -/
def Entry.pointed : Entry → Entry
  | .out message => .out ("  → " ++ message)
  | .err message => .err ("  → " ++ message)
  | .prompt text => .prompt text

namespace Script

/-! ## Requests -/

/-- What a line of a script asks for. Control words are words like any other here. -/
def request (line : String) : Request :=
  if isBlankOrComment line then .nothing else .statement (trim line)

/-- Whether a request is a statement that is rejected. -/
def isRejected : Request → Bool
  | .statement line => (Instruction.ofLine line).toOption.isNone
  | _ => false

/-- Requests up to the first rejected one, which is the last that a halting run looks at. -/
def throughRejected : List Request → List Request
  | [] => []
  | q :: qs => if isRejected q then [q] else q :: throughRejected qs

/-- What the lines that a run looks at ask for. -/
def requests (options : ScriptOptions) (lines : List String) : List Request :=
  if options.stopOnError then throughRejected (lines.map request) else lines.map request

/-- The numbers of the rejected requests, the first of all having the given number. -/
def rejectedFrom (number : Nat) : List Request → List Nat
  | [] => []
  | q :: qs =>
    if isRejected q then number :: rejectedFrom (number + 1) qs else rejectedFrom (number + 1) qs

/-! ## What is printed -/

/-- What a run prints of an exchange: nothing of a line that is passed over, and else the line and
the answer. -/
def tell (number : Nat) (e : Exchange) : Transcript :=
  match e.request with
  | .statement line => echo number line :: e.said.map Entry.pointed
  | _ => []

/-- What a run prints of exchanges, the first of which has the given number. -/
def tellFrom (number : Nat) : List Exchange → Transcript
  | [] => []
  | e :: es => tell number e ++ tellFrom (number + 1) es

/-- How a run ends that has looked at requests from the given number on. -/
def closing (options : ScriptOptions) (recipe : Recipe) (failed : List Nat) (number : Nat)
    (requests : List Request) : Transcript × ScriptResult :=
  if options.stopOnError && requests.any isRejected then
    ([halt (number + requests.length - 1)], .halted (number + requests.length - 1))
  else ([.out (recipe.render options.format)], .completed (failed ++ rejectedFrom number requests))

theorem verdict_eq (outcome : Outcome) :
    verdict outcome = (Console.verdict outcome).map Entry.pointed := by
  cases outcome <;> rfl

theorem isRejected_of_ok {line : String} {asked : Option Instruction}
    (h : Instruction.ofLine line = .ok asked) : isRejected (.statement line) = false := by
  rw [isRejected, h]
  rfl

theorem isRejected_of_error {line : String} {fault : CommandFault}
    (h : Instruction.ofLine line = .error fault) : isRejected (.statement line) = true := by
  rw [isRejected, h]
  rfl

theorem requests_nil (options : ScriptOptions) : requests options [] = [] := by
  unfold requests
  split <;> rfl

theorem requests_cons_of_not {line : String} (options : ScriptOptions) (lines : List String)
    (h : isRejected (request line) = false) :
    requests options (line :: lines) = request line :: requests options lines := by
  unfold requests
  split
  · rw [List.map_cons, throughRejected, if_neg (by simp [h])]
  · rfl

theorem requests_cons_of_halt {line : String} {options : ScriptOptions} (lines : List String)
    (hstop : options.stopOnError = true) (h : isRejected (request line) = true) :
    requests options (line :: lines) = [request line] := by
  unfold requests
  rw [if_pos hstop, List.map_cons, throughRejected, if_pos h]

theorem requests_cons_of_pass {options : ScriptOptions} (line : String) (lines : List String)
    (hstop : options.stopOnError = false) :
    requests options (line :: lines) = request line :: requests options lines := by
  unfold requests
  rw [if_neg (by simp [hstop]), if_neg (by simp [hstop]), List.map_cons]

theorem closing_cons_of_not {options : ScriptOptions} {recipe : Recipe} {failed : List Nat} {number : Nat}
    {q : Request} {qs : List Request} (h : isRejected q = false) :
    closing options recipe failed number (q :: qs) = closing options recipe failed (number + 1) qs := by
  have hrejected : rejectedFrom number (q :: qs) = rejectedFrom (number + 1) qs := by
    rw [rejectedFrom, if_neg (by simp [h])]
  unfold closing
  rw [List.any_cons, h, Bool.false_or, hrejected, List.length_cons,
    show number + (qs.length + 1) - 1 = number + 1 + qs.length - 1 by omega]

theorem closing_cons_of_pass {options : ScriptOptions} {recipe : Recipe} {failed : List Nat} {number : Nat}
    {q : Request} {qs : List Request} (hstop : options.stopOnError = false) (h : isRejected q = true) :
    closing options recipe failed number (q :: qs) =
      closing options recipe (failed ++ [number]) (number + 1) qs := by
  have hrejected : rejectedFrom number (q :: qs) = [number] ++ rejectedFrom (number + 1) qs := by
    rw [rejectedFrom, if_pos h, List.singleton_append]
  unfold closing
  rw [hstop, Bool.false_and, Bool.false_and, if_neg Bool.false_ne_true, if_neg Bool.false_ne_true,
    hrejected, List.append_assoc]

theorem closing_of_halt {options : ScriptOptions} {recipe : Recipe} {failed : List Nat} {number : Nat}
    {q : Request} (hstop : options.stopOnError = true) (h : isRejected q = true) :
    closing options recipe failed number [q] = ([halt number], .halted number) := by
  unfold closing
  rw [if_pos (by simp [hstop, h])]
  rfl

/-! ## The run -/

/-- What a run comes to that looks at the given requests. -/
def course (options : ScriptOptions) (recipe : Recipe) (failed : List Nat) (number : Nat)
    (requests : List Request) : ScriptRun :=
  let closing := closing options (follow recipe requests) failed number requests
  ⟨tellFrom number (exchanges options.format recipe requests) ++ closing.1,
    follow recipe requests, closing.2⟩

section Course

variable {options : ScriptOptions} {recipe : Recipe} {failed : List Nat} {number : Nat}

theorem course_cons_of_not {q : Request} {qs : List Request} (h : isRejected q = false) :
    course options recipe failed number (q :: qs) =
      .after (tell number ⟨q, recipe, (Console.respond options.format recipe q).1, q.effect recipe⟩)
        (course options (q.effect recipe) failed (number + 1) qs) := by
  unfold course
  dsimp only
  rw [closing_cons_of_not h, exchanges, tellFrom, List.append_assoc]
  rfl

theorem course_cons_of_pass {q : Request} {qs : List Request} (hstop : options.stopOnError = false)
    (h : isRejected q = true) : course options recipe failed number (q :: qs) =
      .after (tell number ⟨q, recipe, (Console.respond options.format recipe q).1, q.effect recipe⟩)
        (course options (q.effect recipe) (failed ++ [number]) (number + 1) qs) := by
  unfold course
  dsimp only
  rw [closing_cons_of_pass hstop h, exchanges, tellFrom, List.append_assoc]
  rfl

theorem course_of_halt {q : Request} (hstop : options.stopOnError = true) (h : isRejected q = true) :
    course options recipe failed number [q] =
      ⟨tell number ⟨q, recipe, (Console.respond options.format recipe q).1, q.effect recipe⟩
          ++ [halt number],
        q.effect recipe, .halted number⟩ := by
  unfold course
  dsimp only
  rw [closing_of_halt hstop h, exchanges, exchanges, tellFrom, tellFrom, List.append_nil]
  rfl

theorem course_nil (options : ScriptOptions) (recipe : Recipe) (failed : List Nat) (number : Nat) :
    course options recipe failed number [] =
      ⟨[.out (recipe.render options.format)], recipe, .completed failed⟩ := by
  unfold course closing
  rw [List.any_nil, Bool.and_false, if_neg (by simp), rejectedFrom, List.append_nil]
  rfl

theorem tell_statement (number : Nat) (recipe : Recipe) (format : ReportFormat) (line : String) :
    tell number ⟨.statement line, recipe, (Console.respond format recipe (.statement line)).1,
        Request.effect recipe (.statement line)⟩ =
      echo number line :: verdict (recipe.execute line).1 := by
  rw [verdict_eq, tell, Request.respond_statement]

/-- **A script run is the course of what its lines ask for.** -/
theorem executeFrom_eq (options : ScriptOptions) (recipe : Recipe) (failed : List Nat) (number : Nat)
    (lines : List String) : executeFrom options recipe failed number lines =
      course options recipe failed number (requests options lines) := by
  induction lines generalizing recipe failed number with
  | nil => rw [executeFrom, requests_nil, course_nil]
  | cons line lines ih =>
      rw [executeFrom]
      -- a line is passed over, or understood, or rejected, and only a rejected one can end the run
      by_cases hblank : isBlankOrComment line = true
      · have hrequest : request line = .nothing := if_pos hblank
        rw [if_pos (by rw [isBlankOrComment_trim, hblank]), ih,
          requests_cons_of_not options lines (by rw [hrequest]; rfl), hrequest, course_cons_of_not rfl]
        rfl
      · have hrequest : request line = .statement (trim line) := if_neg hblank
        rw [if_neg (by rw [isBlankOrComment_trim]; exact hblank)]
        cases hline : Instruction.ofLine (trim line) with
        | ok asked =>
            have hnot := isRejected_of_ok hline
            rw [requests_cons_of_not options lines (by rw [hrequest]; exact hnot), hrequest,
              course_cons_of_not hnot, tell_statement, ← ih]
            cases asked with
            | none => rw [Request.effect, Recipe.execute_of_ignored hline]
            | some i => rw [Request.effect, Recipe.execute_of_accepted hline]
        | error fault =>
            -- with the run ends also what the lines ask for; otherwise the number joins those that
            -- failed
            have hrejected := isRejected_of_error hline
            by_cases hstop : options.stopOnError = true
            · rw [requests_cons_of_halt lines hstop (by rw [hrequest]; exact hrejected), hrequest,
                course_of_halt hstop hrejected, tell_statement, Request.effect,
                Recipe.execute_of_rejected hline]
              exact if_pos hstop
            · rw [Bool.not_eq_true] at hstop
              rw [requests_cons_of_pass line lines hstop, hrequest,
                course_cons_of_pass hstop hrejected, tell_statement, ← ih, Request.effect,
                Recipe.execute_of_rejected hline]
              exact if_neg (by simp [hstop])

end Course

end Script

end RecipeScript
