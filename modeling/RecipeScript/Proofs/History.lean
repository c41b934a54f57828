import RecipeScript.Proofs.ConsoleRun
import RecipeScript.Proofs.ScriptRun

/-!
# The history of a recipe

A recipe can be worked on in five ways: a single line is executed, the recipe is reset, it is
rendered, a script is run, or a console session is held. The last two go through many lines, and may
break off in the middle. But each of the five is a list of requests (`Call.requests`), and so is any
list of calls; `history` is the list of their exchanges.

So nothing has to be proved about the runs here beyond that they meet their requests
(`perform_eq_follow`). What holds of a chain of exchanges holds at every point of every run.
-/

namespace RecipeScript

open Console (Request)

/-- One way to work on a recipe. -/
inductive Call where
  | execute (line : String)
  | reset
  | render (format : ReportFormat)
  | script (files : Files) (options : ScriptOptions) (path : String)
  | console (options : ConsoleOptions) (input : ConsoleInput)

namespace Call

/-! ## What a call does -/

/-- The recipe after a call. -/
def perform (recipe : Recipe) : Call → Recipe
  | execute line => (recipe.execute line).2
  | reset => recipe.reset
  | render _ => recipe
  | script files options path => (Script.run files options recipe path).2.1
  | console options input => (Console.run options recipe input).recipe

/-- What a call reports. -/
def printed (recipe : Recipe) : Call → Transcript
  | execute line => Console.verdict (recipe.execute line).1
  | reset => []
  | render format => [.out (recipe.render format)]
  | script files options path => (Script.run files options recipe path).1
  | console options input => (Console.run options recipe input).transcript

/-- What the lines that a call handles ask for. A script that cannot be read has no lines. -/
def requests : Call → List Request
  | execute line => [.statement line]
  | reset => [.clear]
  | render _ => [.showRecipe]
  | script files options path => match files.readText path with
    | .ok text => Script.requests options (linesOf text)
    | .error _ => []
  | console options input => input.feed.requests options.exitWords

/-- How a call prints a recipe when it is asked to. -/
def format : Call → ReportFormat
  | execute _ | reset => .text
  | render format => format
  | script _ options _ => options.format
  | console options _ => options.format

/-- What a call reports of its exchanges. -/
def told (es : List Exchange) : Call → Transcript
  | execute _ | render _ => es.flatMap Exchange.said
  | reset => []
  | script _ _ _ => Script.tellFrom 1 es
  | console options _ => es.flatMap (Console.tell options)

variable {recipe : Recipe}

/-- **A call meets its requests.** -/
theorem perform_eq_follow (recipe : Recipe) (call : Call) :
    call.perform recipe = follow recipe call.requests := by
  cases call with
  | execute line => rfl
  | reset => rfl
  | render format => rfl
  | script files options path =>
      rw [perform, requests, Script.run]
      cases files.readText path with
      | error cause => rfl
      | ok text =>
          dsimp only
          rw [Script.runText, Script.executeFrom_eq]
          rfl
  | console options input =>
      obtain ⟨event, -, hrun⟩ := Console.runFeed_eq options recipe input.feed
      rw [perform, requests, Console.run_eq, hrun]
      rfl

/-- **A call reports its exchanges**, one after the other. -/
theorem exists_printed_eq (recipe : Recipe) (call : Call) : ∃ opening closing : Transcript,
    call.printed recipe =
      opening ++ call.told (exchanges call.format recipe call.requests) ++ closing := by
  cases call with
  | execute line =>
      refine ⟨[], [], ?_⟩
      rw [printed, requests, exchanges, exchanges, told, List.flatMap_singleton, Request.respond_statement,
        List.nil_append, List.append_nil]
  | reset => exact ⟨[], [], rfl⟩
  | render format => exact ⟨[], [], rfl⟩
  | script files options path =>
      rw [printed, requests, Script.run]
      cases files.readText path with
      | error cause => exact ⟨[], [], rfl⟩
      | ok text =>
          dsimp only
          rw [Script.runText, Script.executeFrom_eq, ScriptRun.after, Script.course]
          exact ⟨[Script.header path], _, (List.append_assoc _ _ _).symm⟩
  | console options input =>
      obtain ⟨event, -, hrun⟩ := Console.runFeed_eq options recipe input.feed
      refine ⟨options.banner.map .out, event.lastPrompt options ++ event.parting options, ?_⟩
      rw [printed, requests, Console.run_eq, hrun, ConsoleRun.after, Console.course, told, format,
        List.append_assoc, List.append_assoc]

end Call

/-! ## Calls one after the other -/

/-- The recipe after calls. -/
def performAll (recipe : Recipe) (calls : List Call) : Recipe :=
  calls.foldl Call.perform recipe

/-- All exchanges that calls come to. -/
def history (recipe : Recipe) : List Call → List Exchange
  | [] => []
  | call :: calls => exchanges call.format recipe call.requests ++ history (call.perform recipe) calls

theorem mem_history {recipe : Recipe} {calls : List Call} {e : Exchange} (h : e ∈ history recipe calls) :
    ∃ (format : ReportFormat) (first : Recipe) (requests : List Request),
      e ∈ exchanges format first requests := by
  induction calls generalizing recipe with
  | nil => cases h
  | cons call calls ih =>
      rcases List.mem_append.mp h with h | h
      · exact ⟨_, _, _, h⟩
      · exact ih h

theorem sound_of_mem_history {recipe : Recipe} {calls : List Call} {e : Exchange}
    (h : e ∈ history recipe calls) : e.Sound := by
  obtain ⟨_, _, _, h⟩ := mem_history h
  exact sound_of_mem_exchanges h

theorem map_request_history (recipe : Recipe) (calls : List Call) :
    (history recipe calls).map Exchange.request = calls.flatMap Call.requests := by
  induction calls generalizing recipe with
  | nil => rfl
  | cons call calls ih => rw [history, List.map_append, map_request_exchanges, ih, List.flatMap_cons]

theorem chained_history (recipe : Recipe) (calls : List Call) :
    Chained recipe (history recipe calls) (performAll recipe calls) := by
  induction calls generalizing recipe with
  | nil => rfl
  | cons call calls ih =>
      refine chained_append.mpr ⟨call.perform recipe, ?_, ih (call.perform recipe)⟩
      rw [Call.perform_eq_follow]
      exact chained_exchanges call.format recipe call.requests

/-- Every point of a history is where the requests up to it lead. -/
theorem eq_follow_of_history {recipe first last : Recipe} {calls : List Call} {es : List Exchange}
    (h : Chained first es last) (hes : ∀ e ∈ es, e ∈ history recipe calls) :
    last = follow first (es.map Exchange.request) := by
  refine eq_follow_of_chained h fun e he => ?_
  obtain ⟨_, _, _, hmem⟩ := mem_history (hes e he)
  exact after_of_mem_exchanges hmem

/--
**The history of a recipe.** The exchanges of any calls on a new recipe follow on one another up to
the recipe after the calls, their requests are those of the calls in order, and each is sound. At
every point, also in the middle of a run, the steps are the instructions accepted since the recipe
was last cleared, numbered from one; and until it is cleared again, they only grow at their end.
Each call reports its own exchanges.
-/
theorem history_of_calls (calls : List Call) :
    (history Recipe.empty calls).map Exchange.request = calls.flatMap Call.requests
      ∧ Chained Recipe.empty (history Recipe.empty calls) (performAll Recipe.empty calls)
      ∧ (∀ e ∈ history Recipe.empty calls, e.Sound)
      ∧ (∀ front back recipe, history Recipe.empty calls = front ++ back →
        Chained Recipe.empty front recipe → recipe.steps = numbered (acceptedSinceClear (front.map Exchange.request)))
      ∧ (∀ front middle back earlier later, history Recipe.empty calls = front ++ middle ++ back →
        Chained Recipe.empty front earlier → Chained earlier middle later →
        (∀ e ∈ middle, e.request ≠ .clear) → earlier.steps <+: later.steps)
      ∧ ∀ before call after, calls = before ++ call :: after → ∃ opening closing : Transcript,
        call.printed (performAll Recipe.empty before) =
          opening ++ call.told (exchanges call.format (performAll Recipe.empty before) call.requests)
            ++ closing := by
  refine ⟨map_request_history _ calls, chained_history _ calls, fun e => sound_of_mem_history, ?_, ?_, ?_⟩
  · intro front back recipe hsplit hfront
    rw [eq_follow_of_history hfront fun e he => hsplit ▸ List.mem_append_left back he, steps_follow]
  · intro front middle back earlier later hsplit hfront hmiddle hclear
    have hmem : ∀ e ∈ middle, e ∈ history Recipe.empty calls := fun e he =>
      hsplit ▸ List.mem_append_left back (List.mem_append_right front he)
    rw [eq_follow_of_history hmiddle hmem]
    refine steps_prefix_follow (fun request hrequest => ?_) earlier
    obtain ⟨e, he, rfl⟩ := List.mem_map.mp hrequest
    exact hclear e he
  · exact fun before call after _ => call.exists_printed_eq (performAll Recipe.empty before)

end RecipeScript
