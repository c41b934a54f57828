import RecipeScript.Proofs.ControlWords
import RecipeScript.Proofs.Exchange

/-!
# What a console session comes to

A session is fed lines. It handles them one by one, with a prompt in front of each, until the first
of five events: the prompt cannot be printed, the line is not UTF-8, the line is an exit word, the
lines are over, or an interrupt arrives. The event decides how the session ends; whatever is left of
the input is never looked at.

The lines that come before the event are a list of requests, and what the session does with them is
the list of their exchanges (`runFeed_eq`).
-/

namespace RecipeScript

namespace Console

/-! ## What a session is fed -/

/-- The input of a session, cut into lines. -/
structure Feed where
  lines : List (List UInt8)
  interrupted : Bool
  brokenPrompt : Option (Nat × String)

/-- How a session ends that runs out of lines. -/
def Feed.last (feed : Feed) : ExitReason :=
  if feed.interrupted then .interrupted else .endOfInput

/-- What is left after one line. -/
def Feed.rest (feed : Feed) : Feed where
  lines := feed.lines.tail
  interrupted := feed.interrupted
  brokenPrompt := feed.brokenPrompt.map fun (count, cause) => (count - 1, cause)

/-- Whether the prompt after `k` lines can be printed. -/
def Feed.HasPrompt (feed : Feed) (k : Nat) : Prop :=
  ∀ cause, feed.brokenPrompt ≠ some (k + 1, cause)

/-- Runs a session without its banner. -/
def runFeed (options : ConsoleOptions) (recipe : Recipe) (feed : Feed) : ConsoleRun :=
  runLines options feed.last feed.brokenPrompt recipe feed.lines

end Console

/-- An interrupt comes before the end of an unfinished line, so that line is not fed. -/
def ConsoleInput.feed (input : ConsoleInput) : Console.Feed where
  lines :=
    let lines := Lines.cut Console.lineFeed Console.carriageReturn input.bytes
    if input.interrupted then lines.finished else lines.all
  interrupted := input.interrupted
  brokenPrompt := input.brokenPrompt

namespace Console

theorem run_eq (options : ConsoleOptions) (recipe : Recipe) (input : ConsoleInput) :
    run options recipe input = .after (options.banner.map .out) (runFeed options recipe input.feed) := by
  unfold run runFeed ConsoleInput.feed Feed.last
  dsimp only
  cases input.interrupted <;> rfl

/-! ## What ends a session -/

/-- What ends a session. -/
inductive Event where
  | brokenPrompt (cause : String)
  | badLine (fault : Utf8.Fault)
  | exitWord
  | endOfInput
  | interrupt

/-- A line is an exit word if, blanks apart, it is one of the words, whatever the case of their
letters. -/
def IsExit (exitWords : List String) (text : String) : Prop :=
  trim text ≠ "" ∧ ∃ word ∈ exitWords, sameWord word (trim text) = true

/-- Whether a session meets an event once it has handled `k` lines. -/
def Event.Meets (exitWords : List String) (feed : Feed) (k : Nat) : Event → Prop
  | brokenPrompt cause => feed.brokenPrompt = some (k + 1, cause)
  | badLine fault => feed.HasPrompt k ∧ ∃ line, feed.lines[k]? = some line
      ∧ Utf8.decode line = .error fault
  | exitWord => feed.HasPrompt k ∧ ∃ line text, feed.lines[k]? = some line
      ∧ Utf8.decode line = .ok text ∧ IsExit exitWords text
  | endOfInput => feed.HasPrompt k ∧ feed.lines.length = k ∧ feed.interrupted = false
  | interrupt => feed.HasPrompt k ∧ feed.lines.length = k ∧ feed.interrupted = true

/-- Whether an event is the first that a session meets, once it has handled `k` lines. -/
def Event.IsFirst (exitWords : List String) (feed : Feed) (k : Nat) (event : Event) : Prop :=
  event.Meets exitWords feed k ∧ ∀ j < k, ∀ other : Event, ¬ other.Meets exitWords feed j

/-- How a session ends with an event. -/
def Event.result : Event → Except RunFault ExitReason
  | brokenPrompt cause => .error (.inputOutput cause)
  | badLine fault => .error (.inputOutput fault.message)
  | exitWord => .ok .command
  | endOfInput => .ok .endOfInput
  | interrupt => .ok .interrupted

/-- The prompt that an event comes after. -/
def Event.lastPrompt (options : ConsoleOptions) : Event → Transcript
  | brokenPrompt _ => []
  | _ => [.prompt options.prompt]

/-- What is said after an event. -/
def Event.parting (options : ConsoleOptions) (event : Event) : Transcript :=
  match event.result with
  | .ok reason => farewell options reason
  | .error _ => []

/-! ## What the lines ask for -/

/-- What a line that was typed asks for, unless it ends the session. -/
def request? (exitWords : List String) (line : List UInt8) : Option Request :=
  match Utf8.decode line with
  | .error _ => none
  | .ok text => match Request.ofLine exitWords text with
    | .exit => none
    | request => some request

/-- What the lines before the first that ends the session ask for. -/
def requestsOf (exitWords : List String) : List (List UInt8) → List Request
  | [] => []
  | line :: lines => match request? exitWords line with
    | none => []
    | some request => request :: requestsOf exitWords lines

/-- The lines for which there is a prompt. -/
def Feed.prompted (feed : Feed) : List (List UInt8) :=
  match feed.brokenPrompt with
  | some (n + 1, _) => feed.lines.take n
  | _ => feed.lines

/-- What the lines that a session handles ask for. -/
def Feed.requests (exitWords : List String) (feed : Feed) : List Request :=
  requestsOf exitWords feed.prompted

/-! ### One line -/

section Line

variable {options : ConsoleOptions} {exitWords : List String} {line : List UInt8} {text : String}

theorem Request.ofLine_eq_exit_iff : Request.ofLine exitWords text = .exit ↔ IsExit exitWords text := by
  rw [Request.ofLine_eq]
  unfold IsExit
  rw [← List.any_eq_true]
  by_cases hblank : trim text = ""
  · rw [if_pos hblank]
    exact ⟨(by intro h; cases h), fun h => absurd hblank h.1⟩
  rw [if_neg hblank]
  by_cases hexit : exitWords.any (sameWord · (trim text)) = true
  · rw [if_pos hexit]
    exact ⟨fun _ => ⟨hblank, hexit⟩, fun _ => rfl⟩
  rw [if_neg hexit]
  refine ⟨fun h => ?_, fun h => absurd h.2 hexit⟩
  split at h
  · cases h
  · split at h
    · cases h
    · split at h <;> cases h

theorem request?_eq_some_iff {request : Request} : request? exitWords line = some request ↔
    ∃ text, Utf8.decode line = .ok text ∧ Request.ofLine exitWords text = request ∧ request ≠ .exit := by
  unfold request?
  cases hline : Utf8.decode line with
  | error fault => exact ⟨(by intro h; cases h), fun ⟨_, h, _⟩ => by cases h⟩
  | ok text =>
      constructor
      · intro h
        dsimp only at h
        split at h
        · cases h
        · rename_i hexit
          rw [← Option.some.inj h]
          exact ⟨text, rfl, rfl, hexit⟩
      · rintro ⟨_, htext, rfl, hexit⟩
        rw [← Except.ok.inj htext] at hexit ⊢
        dsimp only
        split
        · exact absurd (by assumption) hexit
        · rfl

theorem request?_eq_none_iff : request? exitWords line = none ↔
    (∃ fault, Utf8.decode line = .error fault) ∨
      ∃ text, Utf8.decode line = .ok text ∧ IsExit exitWords text := by
  unfold request?
  cases hline : Utf8.decode line with
  | error fault => exact ⟨fun _ => Or.inl ⟨fault, rfl⟩, fun _ => rfl⟩
  | ok text =>
      rw [show (∃ fault, (Except.ok text : Except Utf8.Fault String) = .error fault) ↔ False from
        ⟨(by rintro ⟨_, h⟩; cases h), False.elim⟩, false_or]
      constructor
      · intro h
        dsimp only at h
        split at h
        · exact ⟨text, rfl, Request.ofLine_eq_exit_iff.mp (by assumption)⟩
        · cases h
      · rintro ⟨_, htext, hexit⟩
        rw [← Except.ok.inj htext, ← Request.ofLine_eq_exit_iff] at hexit
        dsimp only
        rw [hexit]

theorem handle_of_request {recipe : Recipe} {request : Request}
    (h : request? options.exitWords line = some request) : handle options recipe line =
      ((respond options.format recipe request).1, request.effect recipe, none) := by
  obtain ⟨text, hline, rfl, hexit⟩ := request?_eq_some_iff.mp h
  unfold handle
  rw [hline]
  dsimp only
  split
  · exact absurd (by assumption) hexit
  · rw [← Request.respond_snd options.format]

theorem handle_of_badLine {recipe : Recipe} {fault : Utf8.Fault} (h : Utf8.decode line = .error fault) :
    handle options recipe line = ([], recipe, some (.error (.inputOutput fault.message))) := by
  unfold handle
  rw [h]

theorem handle_of_exit {recipe : Recipe} (h : Utf8.decode line = .ok text)
    (hexit : IsExit options.exitWords text) : handle options recipe line =
      (farewell options .command, recipe, some (.ok .command)) := by
  unfold handle
  rw [h]
  dsimp only
  rw [Request.ofLine_eq_exit_iff.mpr hexit]

end Line

/-! ### One step -/

section Step

variable {options : ConsoleOptions} {exitWords : List String} {recipe : Recipe} {feed : Feed}
  {line : List UInt8} {lines : List (List UInt8)}

theorem runFeed_of_brokenPrompt {cause : String} (h : feed.brokenPrompt = some (1, cause)) :
    runFeed options recipe feed = ⟨[], recipe, .error (.inputOutput cause)⟩ := by
  unfold runFeed
  rw [h]
  cases feed.lines <;> rfl

theorem runFeed_nil (h : feed.HasPrompt 0) (hlines : feed.lines = []) : runFeed options recipe feed =
    ⟨.prompt options.prompt :: farewell options feed.last, recipe, .ok feed.last⟩ := by
  unfold runFeed
  rw [hlines, runLines]
  exact h

theorem runFeed_cons (h : feed.HasPrompt 0) (hlines : feed.lines = line :: lines) :
    runFeed options recipe feed =
      match (handle options recipe line).2.2 with
      | some result =>
        ⟨.prompt options.prompt :: (handle options recipe line).1,
          (handle options recipe line).2.1, result⟩
      | none => .after (.prompt options.prompt :: (handle options recipe line).1)
          (runFeed options (handle options recipe line).2.1 feed.rest) := by
  unfold runFeed Feed.rest
  rw [hlines, runLines]
  · rcases handle options recipe line with ⟨said, after, _ | result⟩ <;> rfl
  · exact h

theorem requests_of_brokenPrompt {cause : String} (h : feed.brokenPrompt = some (1, cause)) :
    feed.requests exitWords = [] := by
  unfold Feed.requests Feed.prompted
  rw [h]
  rfl

theorem prompted_cons (h : feed.HasPrompt 0) (hlines : feed.lines = line :: lines) :
    feed.prompted = line :: feed.rest.prompted := by
  unfold Feed.prompted Feed.rest
  rw [hlines]
  rcases hbroken : feed.brokenPrompt with _ | ⟨_ | _ | n, cause⟩
  · rfl
  · rfl
  · exact absurd hbroken (h cause)
  · rfl

theorem prompted_nil (hlines : feed.lines = []) : feed.prompted = [] := by
  unfold Feed.prompted
  rw [hlines]
  split <;> simp

theorem requests_nil (hlines : feed.lines = []) : feed.requests exitWords = [] := by
  unfold Feed.requests
  rw [prompted_nil hlines]
  rfl

theorem requests_cons_of_some {request : Request} (h : feed.HasPrompt 0)
    (hlines : feed.lines = line :: lines) (hrequest : request? exitWords line = some request) :
    feed.requests exitWords = request :: feed.rest.requests exitWords := by
  unfold Feed.requests
  rw [prompted_cons h hlines, requestsOf, hrequest]

theorem requests_cons_of_none (h : feed.HasPrompt 0) (hlines : feed.lines = line :: lines)
    (hrequest : request? exitWords line = none) : feed.requests exitWords = [] := by
  unfold Feed.requests
  rw [prompted_cons h hlines, requestsOf, hrequest]

theorem brokenPrompt_rest (k : Nat) (cause : String) :
    feed.rest.brokenPrompt = some (k + 1, cause) ↔ feed.brokenPrompt = some (k + 2, cause) := by
  unfold Feed.rest
  rcases feed.brokenPrompt with _ | ⟨n, other⟩
  · simp
  · simp only [Option.map_some, Option.some.injEq, Prod.mk.injEq]
    constructor
    · rintro ⟨h, rfl⟩; exact ⟨by omega, rfl⟩
    · rintro ⟨h, rfl⟩; exact ⟨by omega, rfl⟩

theorem hasPrompt_rest (k : Nat) : feed.rest.HasPrompt k ↔ feed.HasPrompt (k + 1) :=
  forall_congr' fun cause => not_congr (brokenPrompt_rest k cause)

/-- What a session meets after one more line, it meets on what is left after that line. -/
theorem meets_rest {event : Event} {k : Nat} (hlines : feed.lines = line :: lines) :
    event.Meets exitWords feed.rest k ↔ event.Meets exitWords feed (k + 1) := by
  have hget : feed.rest.lines[k]? = feed.lines[k + 1]? := by
    unfold Feed.rest
    rw [hlines]
    rfl
  have hlength : feed.rest.lines.length = k ↔ feed.lines.length = k + 1 := by
    have htail : feed.rest.lines = lines := by
      show feed.lines.tail = lines
      rw [hlines, List.tail_cons]
    rw [htail, hlines, List.length_cons]
    omega
  cases event with
  | brokenPrompt cause => exact brokenPrompt_rest k cause
  | badLine fault => exact and_congr (hasPrompt_rest k) (by rw [hget])
  | exitWord => exact and_congr (hasPrompt_rest k) (by rw [hget])
  | endOfInput => exact and_congr (hasPrompt_rest k) (and_congr hlength Iff.rfl)
  | interrupt => exact and_congr (hasPrompt_rest k) (and_congr hlength Iff.rfl)

end Step

/-! ## The run -/

/-- What a session prints of an exchange. -/
def tell (options : ConsoleOptions) (e : Exchange) : Transcript :=
  .prompt options.prompt :: e.said

/-- What a session comes to that meets the given requests and then the event. -/
def course (options : ConsoleOptions) (recipe : Recipe) (requests : List Request) (event : Event) :
    ConsoleRun :=
  ⟨(exchanges options.format recipe requests).flatMap (tell options) ++ event.lastPrompt options
    ++ event.parting options, follow recipe requests, event.result⟩

section Course

variable {options : ConsoleOptions} {recipe : Recipe} {feed : Feed}

theorem course_nil (event : Event) : course options recipe [] event =
    ⟨event.lastPrompt options ++ event.parting options, recipe, event.result⟩ := rfl

theorem course_cons (request : Request) (requests : List Request) (event : Event) :
    course options recipe (request :: requests) event =
      .after (.prompt options.prompt :: (respond options.format recipe request).1)
        (course options (request.effect recipe) requests event) := by
  unfold course ConsoleRun.after
  rw [exchanges, List.flatMap_cons, List.append_assoc, List.append_assoc, List.append_assoc]
  rfl

theorem meets_of_nil (options : ConsoleOptions) (exitWords : List String) (h : feed.HasPrompt 0)
    (hlines : feed.lines = []) :
    ∃ event : Event, event.Meets exitWords feed 0 ∧ event.result = .ok feed.last
      ∧ event.lastPrompt options = [.prompt options.prompt] := by
  have hlength : feed.lines.length = 0 := by rw [hlines]; rfl
  unfold Feed.last
  cases hinterrupted : feed.interrupted with
  | false => exact ⟨.endOfInput, ⟨h, hlength, hinterrupted⟩, rfl, rfl⟩
  | true => exact ⟨.interrupt, ⟨h, hlength, hinterrupted⟩, rfl, rfl⟩

theorem runFeed_eq_of_not_hasPrompt (recipe : Recipe) (h : ¬ feed.HasPrompt 0) : ∃ event : Event,
    event.Meets options.exitWords feed (feed.requests options.exitWords).length ∧
      runFeed options recipe feed = course options recipe (feed.requests options.exitWords) event := by
  obtain ⟨cause, hcause⟩ : ∃ cause, feed.brokenPrompt = some (1, cause) := by
    unfold Feed.HasPrompt at h
    push Not at h
    exact h
  refine ⟨.brokenPrompt cause, ?_, ?_⟩
  · rw [requests_of_brokenPrompt hcause]
    exact hcause
  · rw [runFeed_of_brokenPrompt hcause, requests_of_brokenPrompt hcause]
    rfl

/-- **A session meets the requests of its lines, and then the event that ends it.** -/
theorem runFeed_eq (options : ConsoleOptions) (recipe : Recipe) (feed : Feed) : ∃ event : Event,
    event.Meets options.exitWords feed (feed.requests options.exitWords).length ∧
      runFeed options recipe feed = course options recipe (feed.requests options.exitWords) event := by
  -- on the lines that are left; each step also counts down to the prompt that fails
  induction hlines : feed.lines generalizing feed recipe with
  | nil =>
      by_cases hprompt : feed.HasPrompt 0
      · obtain ⟨event, hmeets, hresult, hlast⟩ :=
          meets_of_nil options options.exitWords hprompt hlines
        refine ⟨event, ?_, ?_⟩
        · rw [requests_nil hlines]
          exact hmeets
        · rw [runFeed_nil hprompt hlines, requests_nil hlines, course_nil, hlast, Event.parting, hresult]
          rfl
      · exact runFeed_eq_of_not_hasPrompt recipe hprompt
  | cons line lines ih =>
      by_cases hprompt : feed.HasPrompt 0
      · have hline : feed.lines[0]? = some line := by rw [hlines]; rfl
        cases hrequest : request? options.exitWords line with
        | some request =>
            have hrest : feed.rest.lines = lines := by
              show feed.lines.tail = lines
              rw [hlines, List.tail_cons]
            obtain ⟨event, hmeets, hrun⟩ := ih (request.effect recipe) feed.rest hrest
            rw [requests_cons_of_some hprompt hlines hrequest]
            refine ⟨event, (meets_rest hlines).mp hmeets, ?_⟩
            rw [runFeed_cons hprompt hlines, handle_of_request hrequest, course_cons, ← hrun]
        | none =>
            -- the line ends the session, so it is not among the requests
            rw [requests_cons_of_none hprompt hlines hrequest]
            rcases request?_eq_none_iff.mp hrequest with ⟨fault, hfault⟩ | ⟨text, htext, hexit⟩
            · refine ⟨.badLine fault, ⟨hprompt, line, hline, hfault⟩, ?_⟩
              rw [runFeed_cons hprompt hlines, handle_of_badLine hfault]
              rfl
            · refine ⟨.exitWord, ⟨hprompt, line, text, hline, htext, hexit⟩, ?_⟩
              rw [runFeed_cons hprompt hlines, handle_of_exit htext hexit]
              rfl
      · exact runFeed_eq_of_not_hasPrompt recipe hprompt

end Course

end Console

end RecipeScript
