import Mathlib.Data.List.DropRight
import RecipeScript.Console

/-!
# Exchanges

However a recipe is worked on, it is worked on one request at a time. `Request.effect` is what a
request does to a recipe, and it is the one place where that is said: an accepted statement records
its instruction, `clear` empties the recipe, and nothing else does anything.

An exchange is a request together with what is said in answer and the recipe before and after. A
script and a console session each come down to a list of exchanges with something printed around
them, so what holds of every exchange, and of every chain of them, holds of both.

The main result is `steps_follow`: the steps of a recipe are the instructions accepted since it was
last cleared, numbered from one.
-/

namespace RecipeScript

/-! ## What a line does -/

section Execute

variable {recipe : Recipe} {line : String}

theorem Recipe.execute_of_accepted {i : Instruction} (h : Instruction.ofLine line = .ok (some i)) :
    recipe.execute line = (.accepted (recipe.nextStep i), recipe.record i) := by
  unfold execute
  rw [h]

theorem Recipe.execute_of_ignored (h : Instruction.ofLine line = .ok none) :
    recipe.execute line = (.ignored, recipe) := by
  unfold execute
  rw [h]

theorem Recipe.execute_of_rejected {fault : CommandFault} (h : Instruction.ofLine line = .error fault) :
    recipe.execute line = (.rejected fault, recipe) := by
  unfold execute
  rw [h]

end Execute

namespace Console.Request

/-! ## What a request does -/

/-- The instruction of an accepted statement. -/
def instruction? : Request → Option Instruction
  | .statement line => (Instruction.ofLine line).toOption.join
  | _ => none

/-- What a request does to a recipe. -/
def effect (recipe : Recipe) : Request → Recipe
  | .clear => recipe.reset
  | .statement line => (recipe.execute line).2
  | _ => recipe

theorem instruction?_eq_some_iff {request : Request} {i : Instruction} :
    request.instruction? = some i ↔
      ∃ line, request = .statement line ∧ Instruction.ofLine line = .ok (some i) := by
  constructor
  · intro h
    cases request with
    | statement line =>
        refine ⟨line, rfl, ?_⟩
        rw [instruction?] at h
        cases hline : Instruction.ofLine line with
        | error fault => rw [hline] at h; cases h
        | ok asked => rw [hline] at h; exact congrArg _ h
    | _ => cases h
  · rintro ⟨line, rfl, hline⟩
    rw [instruction?, hline]
    rfl

theorem effect_of_instruction {recipe : Recipe} {request : Request} {i : Instruction}
    (h : request.instruction? = some i) : request.effect recipe = recipe.record i := by
  obtain ⟨line, rfl, hline⟩ := instruction?_eq_some_iff.mp h
  rw [effect, Recipe.execute_of_accepted hline]

/-- **Whatever is neither an accepted statement nor `clear` leaves the recipe as it is.** -/
theorem effect_of_none {recipe : Recipe} {request : Request} (h : request.instruction? = none)
    (hclear : request ≠ .clear) : request.effect recipe = recipe := by
  cases request with
  | clear => exact absurd rfl hclear
  | statement line =>
      rw [effect]
      cases hline : Instruction.ofLine line with
      | error fault => rw [Recipe.execute_of_rejected hline]
      | ok asked =>
          cases asked with
          | none => rw [Recipe.execute_of_ignored hline]
          | some i => rw [instruction?_eq_some_iff.mpr ⟨line, rfl, hline⟩] at h; cases h
  | _ => rfl

theorem respond_statement (format : ReportFormat) (recipe : Recipe) (line : String) :
    respond format recipe (.statement line) =
      (verdict (recipe.execute line).1, (recipe.execute line).2) := by
  rw [respond]

theorem respond_snd (format : ReportFormat) (recipe : Recipe) (request : Request) :
    (respond format recipe request).2 = request.effect recipe := by
  cases request with
  | statement line => rw [respond_statement, effect]
  | _ => rfl

end Console.Request

open Console (Request)

/-! ## What requests do together -/

/-- The recipe after requests have been met one after the other. -/
def follow (recipe : Recipe) (requests : List Request) : Recipe :=
  requests.foldl Request.effect recipe

/-- The steps that instructions become when they are recorded in an empty recipe. -/
def numbered (instructions : List Instruction) : List Step :=
  instructions.mapIdx fun k i => ⟨k + 1, i⟩

/-- The instructions accepted since the recipe was last cleared. -/
def acceptedSinceClear (requests : List Request) : List Instruction :=
  (requests.rtakeWhile (· ≠ .clear)).filterMap Request.instruction?

theorem numbered_append (instructions : List Instruction) (i : Instruction) :
    numbered (instructions ++ [i]) = numbered instructions ++ [⟨instructions.length + 1, i⟩] := by
  unfold numbered
  rw [List.mapIdx_concat]

theorem length_numbered (instructions : List Instruction) :
    (numbered instructions).length = instructions.length := by
  unfold numbered
  rw [List.length_mapIdx]

theorem follow_append (recipe : Recipe) (front back : List Request) :
    follow recipe (front ++ back) = follow (follow recipe front) back :=
  List.foldl_append

/-- **The steps of a recipe are the instructions accepted since it was last cleared, numbered from
one.** -/
theorem steps_follow (requests : List Request) :
    (follow Recipe.empty requests).steps = numbered (acceptedSinceClear requests) := by
  -- from the last request backwards, since clearing forgets what came before it
  induction requests using List.reverseRecOn with
  | nil => rfl
  | append_singleton requests request ih =>
      rw [follow_append]
      show (request.effect (follow Recipe.empty requests)).steps = _
      unfold acceptedSinceClear at ih ⊢
      by_cases hclear : request = .clear
      · subst hclear
        rw [List.rtakeWhile_concat_neg _ _ _ (by simp)]
        rfl
      · rw [List.rtakeWhile_concat_pos _ _ _ (by simpa using hclear), List.filterMap_append]
        cases hi : request.instruction? with
        | none => rw [Request.effect_of_none hi hclear, ih]; simp [hi]
        | some i =>
            rw [Request.effect_of_instruction hi, List.filterMap_cons_some hi, List.filterMap_nil,
              numbered_append, ← ih, ← length_numbered, ← ih]
            rfl

/-- **Until it is cleared, a recipe only grows, and at its end.** -/
theorem steps_prefix_follow {requests : List Request} (h : ∀ request ∈ requests, request ≠ .clear)
    (recipe : Recipe) : recipe.steps <+: (follow recipe requests).steps := by
  induction requests generalizing recipe with
  | nil => exact List.prefix_refl _
  | cons request requests ih =>
      refine List.IsPrefix.trans ?_
        (ih (fun q hq => h q (List.mem_cons_of_mem _ hq)) (request.effect recipe))
      cases hi : request.instruction? with
      | none =>
          have heffect : request.effect recipe = recipe :=
            Request.effect_of_none hi (h request List.mem_cons_self)
          simp only [heffect, List.prefix_rfl]
      | some i =>
          rw [Request.effect_of_instruction hi]
          exact List.prefix_append _ _

/-! ## Exchanges -/

/-- A request, what is said in answer to it, and the recipe before and after. -/
structure Exchange where
  request : Request
  before : Recipe
  said : Transcript
  after : Recipe

/-- The exchanges in which requests are met one after the other. -/
def exchanges (format : ReportFormat) (recipe : Recipe) : List Request → List Exchange
  | [] => []
  | request :: requests =>
    ⟨request, recipe, (Console.respond format recipe request).1, request.effect recipe⟩
      :: exchanges format (request.effect recipe) requests

/-- Exchanges follow on one another: each begins with the recipe after the one before it. -/
def Chained (first : Recipe) : List Exchange → Recipe → Prop
  | [], last => first = last
  | e :: es, last => e.before = first ∧ Chained e.after es last

theorem map_request_exchanges (format : ReportFormat) (recipe : Recipe) (requests : List Request) :
    (exchanges format recipe requests).map Exchange.request = requests := by
  induction requests generalizing recipe with
  | nil => rfl
  | cons request requests ih => rw [exchanges, List.map_cons, ih]

theorem chained_exchanges (format : ReportFormat) (recipe : Recipe) (requests : List Request) :
    Chained recipe (exchanges format recipe requests) (follow recipe requests) := by
  induction requests generalizing recipe with
  | nil => rfl
  | cons request requests ih => exact ⟨rfl, ih (request.effect recipe)⟩

theorem chained_append {first last : Recipe} {front back : List Exchange} :
    Chained first (front ++ back) last ↔
      ∃ middle, Chained first front middle ∧ Chained middle back last := by
  induction front generalizing first with
  | nil => exact ⟨fun h => ⟨first, rfl, h⟩, fun ⟨_, rfl, h⟩ => h⟩
  | cons e front ih =>
      rw [List.cons_append]
      constructor
      · rintro ⟨hbefore, h⟩
        obtain ⟨middle, hfront, hback⟩ := ih.mp h
        exact ⟨middle, ⟨hbefore, hfront⟩, hback⟩
      · rintro ⟨middle, ⟨hbefore, hfront⟩, hback⟩
        exact ⟨hbefore, ih.mpr ⟨middle, hfront, hback⟩⟩

theorem after_of_mem_exchanges {format : ReportFormat} {recipe : Recipe} {requests : List Request}
    {e : Exchange} (h : e ∈ exchanges format recipe requests) : e.after = e.request.effect e.before := by
  induction requests generalizing recipe with
  | nil => cases h
  | cons request requests ih =>
      rcases List.mem_cons.mp h with rfl | h
      · rfl
      · exact ih h

/-- A chain ends where its requests lead. -/
theorem eq_follow_of_chained {first last : Recipe} {es : List Exchange} (h : Chained first es last)
    (hafter : ∀ e ∈ es, e.after = e.request.effect e.before) :
    last = follow first (es.map Exchange.request) := by
  induction es generalizing first with
  | nil => exact h.symm
  | cons e es ih =>
      obtain ⟨rfl, h⟩ := h
      rw [List.map_cons, ih h fun e' he' => hafter e' (List.mem_cons_of_mem e he'),
        hafter e List.mem_cons_self]
      rfl

/-- What an exchange may do, by its request. -/
inductive Exchange.Sound (e : Exchange) : Prop where
  /-- An accepted statement is confirmed with the step that it appends. -/
  | accepted (line : String) (i : Instruction) (step : Step) :
      e.request = .statement line → Instruction.ofLine line = .ok (some i) →
      step = ⟨e.before.steps.length + 1, i⟩ → e.before.execute line = (.accepted step, e.after) →
      e.after.steps = e.before.steps ++ [step] → step.number = e.after.steps.length →
      e.said = [.out ("✓ " ++ step.sentence)] → e.Sound
  /-- After `clear` there is nothing left. -/
  | cleared : e.request = .clear → e.after = Recipe.empty → e.Sound
  /-- Any other request leaves the recipe as it is. -/
  | unchanged : e.request.instruction? = none → e.request ≠ .clear → e.after = e.before → e.Sound

/-- **Every exchange is sound.** -/
theorem sound_of_mem_exchanges {format : ReportFormat} {recipe : Recipe} {requests : List Request}
    {e : Exchange} (h : e ∈ exchanges format recipe requests) : e.Sound := by
  induction requests generalizing recipe with
  | nil => cases h
  | cons request requests ih =>
      rcases List.mem_cons.mp h with rfl | h
      -- only an instruction and `clear` change anything
      · cases hi : request.instruction? with
        | some i =>
            obtain ⟨line, rfl, hline⟩ := Request.instruction?_eq_some_iff.mp hi
            have hafter : (Request.statement line).effect recipe = recipe.record i :=
              Request.effect_of_instruction hi
            refine .accepted line i (recipe.nextStep i) rfl hline rfl ?_ ?_ ?_ ?_
            · rw [hafter, Recipe.execute_of_accepted hline]
            · rw [hafter]; rfl
            · rw [hafter]; simp [Recipe.nextStep, Recipe.record]
            · rw [Request.respond_statement, Recipe.execute_of_accepted hline]; rfl
        | none =>
            by_cases hclear : request = .clear
            · subst hclear
              exact .cleared rfl rfl
            · exact .unchanged hi hclear (Request.effect_of_none hi hclear)
      · exact ih h

end RecipeScript
