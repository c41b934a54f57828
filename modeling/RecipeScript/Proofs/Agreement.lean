import Mathlib.Data.List.Nodup
import RecipeScript.Proofs.Conversation
import RecipeScript.Proofs.Decoding
import RecipeScript.Proofs.ScriptRun

/-!
# Scripts and console sessions agree

A text can be run as a script, or typed at a console up to the end of the input. As long as none of
its lines is a word that a session takes for itself, the two do the same: a line is executed and its
verdict is printed. They skip blank lines and comments in different places, but what is skipped
would be ignored if it were executed, so one definition, `turns`, tells of both what became of the
lines.
-/

namespace RecipeScript

open Console (Request)

/-- Whether an entry is a complaint. -/
def Entry.isErr : Entry → Bool
  | err _ => true
  | _ => false

/-! ## Turns -/

/-- A line with its number, and what is said of it. -/
structure Turn where
  number : Nat
  line : String
  message : Entry

/-- A turn as a script prints it. -/
def Turn.printed (turn : Turn) : Transcript :=
  [Script.echo turn.number turn.line, turn.message.pointed]

/-- What becomes of lines that are executed one after the other, the first of which has the given
number. -/
def turns (recipe : Recipe) (number : Nat) : List String → List Turn
  | [] => []
  | line :: lines =>
    (Console.verdict (recipe.execute (trim line)).1).map (Turn.mk number (trim line))
      ++ turns (recipe.execute (trim line)).2 (number + 1) lines

/-- The recipe after lines have been executed one after the other. -/
def executeAll (recipe : Recipe) (lines : List String) : Recipe :=
  lines.foldl (fun recipe line => (recipe.execute (trim line)).2) recipe

section Turns

variable {recipe : Recipe} {number : Nat} {lines : List String} {turn : Turn}

/-- Of a line there is at most one thing to say. -/
theorem verdict_cases (outcome : Outcome) : Console.verdict outcome = [] ∨
    ∃ message : Entry, Console.verdict outcome = [message] ∧ message.isPrompt = false := by
  cases outcome with
  | ignored => exact Or.inl rfl
  | accepted step => exact Or.inr ⟨_, rfl, rfl⟩
  | rejected fault => exact Or.inr ⟨_, rfl, rfl⟩

theorem line_of_mem_turns (h : turn ∈ turns recipe number lines) :
    ∃ k line, turn.number = number + k ∧ lines[k]? = some line ∧ turn.line = trim line := by
  induction lines generalizing recipe number with
  | nil => cases h
  | cons line lines ih =>
      rcases List.mem_append.mp h with h | h
      · obtain ⟨message, -, rfl⟩ := List.mem_map.mp h
        exact ⟨0, line, rfl, rfl, rfl⟩
      · obtain ⟨k, other, hnumber, hline, htrim⟩ := ih h
        exact ⟨k + 1, other, by omega, hline, htrim⟩

theorem pairwise_turns (recipe : Recipe) (number : Nat) (lines : List String) :
    (turns recipe number lines).Pairwise (fun s t => s.number < t.number) := by
  induction lines generalizing recipe number with
  | nil => exact List.Pairwise.nil
  | cons line lines ih =>
      have htail := ih (recipe.execute (trim line)).2 (number + 1)
      rw [turns]
      rcases verdict_cases (recipe.execute (trim line)).1 with h | ⟨message, h, -⟩
      · rw [h]
        exact htail
      · rw [h]
        refine List.pairwise_cons.mpr ⟨fun t ht => ?_, htail⟩
        obtain ⟨k, -, hnumber, -, -⟩ := line_of_mem_turns ht
        show number < t.number
        omega

theorem eq_of_number_eq {s t : Turn} (hs : s ∈ turns recipe number lines)
    (ht : t ∈ turns recipe number lines) (h : s.number = t.number) : s = t := by
  have hnodup : ((turns recipe number lines).map Turn.number).Nodup :=
    List.pairwise_map.mpr ((pairwise_turns recipe number lines).imp fun hlt => Nat.ne_of_lt hlt)
  exact List.inj_on_of_nodup_map hnodup hs ht h

end Turns

/-! ## One line -/

/-- A line is ordinary if, blanks apart, it is none of the words that a session takes for itself. -/
def IsOrdinary (exitWords : List String) (line : String) : Prop :=
  ∀ word ∈ Console.controlWords ++ exitWords, Console.sameWord word (trim line) = false

instance (exitWords : List String) (line : String) : Decidable (IsOrdinary exitWords line) :=
  List.decidableBAll (fun word => Console.sameWord word (trim line) = false)
    (Console.controlWords ++ exitWords)

section Line

variable {exitWords : List String} {line : String}

theorem execute_of_blank (recipe : Recipe) (h : isBlankOrComment line = true) :
    recipe.execute (trim line) = (.ignored, recipe) :=
  Recipe.execute_of_ignored (by rw [Instruction.ofLine_trim, Instruction.ofLine_eq_ok_none_iff, h])

theorem not_any_of_isOrdinary (h : IsOrdinary exitWords line) :
    ¬ exitWords.any (Console.sameWord · (trim line)) = true := by
  rw [List.any_eq_true]
  rintro ⟨word, hword, hsame⟩
  rw [h word (List.mem_append_right _ hword)] at hsame
  cases hsame

theorem not_isExit_of_isOrdinary (h : IsOrdinary exitWords line) : ¬ Console.IsExit exitWords line :=
  fun hexit => not_any_of_isOrdinary h (List.any_eq_true.mpr hexit.2)

/-- A session passes over an ordinary line that is blank, and executes any other. -/
theorem ofLine_of_isOrdinary (h : IsOrdinary exitWords line) :
    Request.ofLine exitWords line = if trim line = "" then .nothing else .statement (trim line) := by
  have hcontrol : ∀ word ∈ Console.controlWords, ¬ Console.sameWord word (trim line) = true := by
    intro word hword
    rw [h word (List.mem_append_left _ hword)]
    exact Bool.false_ne_true
  rw [Request.ofLine_eq, if_neg (not_any_of_isOrdinary h), if_neg (hcontrol "help" (by decide)),
    if_neg (hcontrol "recipe" (by decide)), if_neg (hcontrol "clear" (by decide))]

theorem isBlankOrComment_of_trim_eq (h : trim line = "") : isBlankOrComment line = true := by
  rw [isBlankOrComment_eq, h]
  rfl

theorem respond_ofLine (format : ReportFormat) (recipe : Recipe) (h : IsOrdinary exitWords line) :
    Console.respond format recipe (Request.ofLine exitWords line) =
      (Console.verdict (recipe.execute (trim line)).1, (recipe.execute (trim line)).2) := by
  rw [ofLine_of_isOrdinary h]
  split
  · rename_i hblank
    rw [execute_of_blank recipe (isBlankOrComment_of_trim_eq hblank)]
    rfl
  · exact Request.respond_statement format recipe (trim line)

theorem effect_ofLine (recipe : Recipe) (h : IsOrdinary exitWords line) :
    (Request.ofLine exitWords line).effect recipe = (recipe.execute (trim line)).2 := by
  rw [← Request.respond_snd .text, respond_ofLine .text recipe h]

theorem effect_request (recipe : Recipe) (line : String) :
    (Script.request line).effect recipe = (recipe.execute (trim line)).2 := by
  unfold Script.request
  split
  · rename_i hblank
    rw [execute_of_blank recipe hblank]
    rfl
  · rfl

theorem tell_request (format : ReportFormat) (recipe : Recipe) (number : Nat) (line : String) :
    Script.tell number ⟨Script.request line, recipe,
        (Console.respond format recipe (Script.request line)).1, (Script.request line).effect recipe⟩ =
      ((Console.verdict (recipe.execute (trim line)).1).map (Turn.mk number (trim line))).flatMap
        Turn.printed := by
  by_cases hblank : isBlankOrComment line = true
  · rw [execute_of_blank recipe hblank, Script.request, if_pos hblank]
    rfl
  · rw [Script.request, if_neg hblank, Script.tell_statement, Script.verdict_eq]
    cases hline : Instruction.ofLine (trim line) with
    | error fault =>
        rw [Recipe.execute_of_rejected hline]
        rfl
    | ok asked =>
        cases asked with
        | none =>
            rw [Instruction.ofLine_eq_ok_none_iff, isBlankOrComment_trim] at hline
            exact absurd hline hblank
        | some i =>
            rw [Recipe.execute_of_accepted hline]
            rfl

/-- A line is rejected exactly if there is a complaint about it. -/
theorem isRejected_request (recipe : Recipe) (line : String) : Script.isRejected (Script.request line) =
    (Console.verdict (recipe.execute (trim line)).1).any Entry.isErr := by
  unfold Script.request
  split
  · rename_i hblank
    rw [execute_of_blank recipe hblank]
    rfl
  · cases hline : Instruction.ofLine (trim line) with
    | error fault =>
        rw [Script.isRejected_of_error hline, Recipe.execute_of_rejected hline]
        rfl
    | ok asked =>
        rw [Script.isRejected_of_ok hline]
        cases asked with
        | none => rw [Recipe.execute_of_ignored hline]; rfl
        | some i => rw [Recipe.execute_of_accepted hline]; rfl

end Line

/-! ## All lines -/

section Lines

variable {exitWords : List String} {lines : List String}

theorem follow_request (recipe : Recipe) (lines : List String) :
    follow recipe (lines.map Script.request) = executeAll recipe lines := by
  induction lines generalizing recipe with
  | nil => rfl
  | cons line lines ih =>
      show follow ((Script.request line).effect recipe) (lines.map Script.request) = _
      rw [effect_request, ih]
      rfl

theorem follow_ofLine (recipe : Recipe) (h : ∀ line ∈ lines, IsOrdinary exitWords line) :
    follow recipe (lines.map (Request.ofLine exitWords)) = executeAll recipe lines := by
  induction lines generalizing recipe with
  | nil => rfl
  | cons line lines ih =>
      show follow ((Request.ofLine exitWords line).effect recipe)
        (lines.map (Request.ofLine exitWords)) = _
      rw [effect_ofLine recipe (h line List.mem_cons_self),
        ih _ fun other hother => h other (List.mem_cons_of_mem line hother)]
      rfl

/-- **A script prints the turns of its lines.** -/
theorem tellFrom_request (format : ReportFormat) (recipe : Recipe) (number : Nat) (lines : List String) :
    Script.tellFrom number (exchanges format recipe (lines.map Script.request)) =
      (turns recipe number lines).flatMap Turn.printed := by
  induction lines generalizing recipe number with
  | nil => rfl
  | cons line lines ih =>
      rw [List.map_cons, exchanges, Script.tellFrom, tell_request, effect_request, ih, turns,
        List.flatMap_append]

/-- **What a session prints, prompts apart, are the messages of the turns.** -/
theorem filter_tell_ofLine {options : ConsoleOptions} (recipe : Recipe) (number : Nat)
    (h : ∀ line ∈ lines, IsOrdinary options.exitWords line) :
    ((exchanges options.format recipe (lines.map (Request.ofLine options.exitWords))).flatMap
        (Console.tell options)).filter (fun entry => !entry.isPrompt) =
      (turns recipe number lines).map Turn.message := by
  induction lines generalizing recipe number with
  | nil => rfl
  | cons line lines ih =>
      have hline := h line List.mem_cons_self
      rw [List.map_cons, exchanges, List.flatMap_cons, List.filter_append, effect_ofLine recipe hline,
        ih _ (number + 1) fun other hother => h other (List.mem_cons_of_mem line hother), turns,
        List.map_append, Console.tell, respond_ofLine options.format recipe hline]
      congr 1
      rcases verdict_cases (recipe.execute (trim line)).1 with h | ⟨message, h, hmessage⟩
      · rw [h]
        rfl
      · rw [h, List.filter_cons_of_neg (by simp [Entry.isPrompt]),
          List.filter_cons_of_pos (by rw [hmessage]; rfl)]
        rfl

/-- **The rejected lines are those with a complaint.** -/
theorem rejectedFrom_request (recipe : Recipe) (number : Nat) (lines : List String) :
    Script.rejectedFrom number (lines.map Script.request) =
      ((turns recipe number lines).filter (·.message.isErr)).map Turn.number := by
  induction lines generalizing recipe number with
  | nil => rfl
  | cons line lines ih =>
      rw [List.map_cons, Script.rejectedFrom, turns, List.filter_append, List.map_append,
        isRejected_request recipe, ih (recipe.execute (trim line)).2 (number + 1)]
      rcases verdict_cases (recipe.execute (trim line)).1 with h | ⟨message, h, -⟩
      · rw [h]
        rfl
      · rw [h, List.map_cons, List.map_nil]
        cases hmessage : message.isErr with
        | true => simp [hmessage]
        | false => simp [hmessage]

end Lines

/-! ## The two runs -/

section Runs

variable {exitWords : List String} {text : String}

/-- What a session reads when the text is all that is typed. -/
def ConsoleInput.typed (text : String) : ConsoleInput where
  bytes := Utf8.encode text
  interrupted := false

theorem lines_feed_typed (text : String) :
    (ConsoleInput.typed text).feed.lines.map Utf8.decode = (linesOf text).map .ok :=
  Utf8.cut_encode_decode text

theorem requestsOf_eq {lines : List (List UInt8)} {texts : List String}
    (hlines : lines.map Utf8.decode = texts.map .ok)
    (h : ∀ text ∈ texts, ¬ Console.IsExit exitWords text) :
    Console.requestsOf exitWords lines = texts.map (Request.ofLine exitWords) := by
  induction lines generalizing texts with
  | nil =>
      rw [List.map_nil, eq_comm, List.map_eq_nil_iff] at hlines
      rw [hlines]
      rfl
  | cons line lines ih =>
      cases texts with
      | nil => cases hlines
      | cons text texts =>
          rw [List.map_cons, List.map_cons, List.cons.injEq] at hlines
          have hrequest : Console.request? exitWords line = some (Request.ofLine exitWords text) :=
            Console.request?_eq_some_iff.mpr ⟨text, hlines.1, rfl, fun hexit =>
              h text List.mem_cons_self (Console.Request.ofLine_eq_exit_iff.mp hexit)⟩
          rw [Console.requestsOf, hrequest]
          dsimp only
          rw [ih hlines.2 fun other hother => h other (List.mem_cons_of_mem text hother), List.map_cons]

/-- A session that is fed ordinary lines only goes on to the end of the input. -/
theorem run_typed (options : ConsoleOptions) (recipe : Recipe)
    (h : ∀ line ∈ linesOf text, IsOrdinary options.exitWords line) :
    Console.run options recipe (.typed text) = .after (options.banner.map .out)
      (Console.course options recipe ((linesOf text).map (Request.ofLine options.exitWords))
        .endOfInput) := by
  have hlines := lines_feed_typed text
  have hrequests : (ConsoleInput.typed text).feed.requests options.exitWords =
      (linesOf text).map (Request.ofLine options.exitWords) :=
    requestsOf_eq hlines fun line hline => not_isExit_of_isOrdinary (h line hline)
  have hlength : (ConsoleInput.typed text).feed.lines.length = (linesOf text).length := by
    rw [← List.length_map Utf8.decode, hlines, List.length_map]
  -- once all lines are handled the input is over, and no other event can come then
  obtain ⟨event, hmeets, hrun⟩ := Console.runFeed_eq options recipe (ConsoleInput.typed text).feed
  rw [hrequests] at hmeets hrun
  have hend : Console.Event.endOfInput.Meets options.exitWords (ConsoleInput.typed text).feed
      ((linesOf text).map (Request.ofLine options.exitWords)).length :=
    ⟨(by intro cause h; cases h), by rw [hlength, List.length_map], rfl⟩
  rw [Console.run_eq, hrun, Console.meets_unique hmeets hend]

/-- A script that goes on after rejected lines executes them all. -/
theorem run_read {files : Files} {path : String} {options : ScriptOptions} (recipe : Recipe)
    (hread : files.read path = .ok (Utf8.encode text)) (hstop : options.stopOnError = false) :
    Script.run files options recipe path =
      (Script.header path :: (turns recipe 1 (linesOf text)).flatMap Turn.printed
          ++ [.out ((executeAll recipe (linesOf text)).render options.format)],
        executeAll recipe (linesOf text),
        .ok (.completed
          (((turns recipe 1 (linesOf text)).filter (·.message.isErr)).map Turn.number))) := by
  have htext := readText_of_read hread
  have hrequests : Script.requests options (linesOf text) = (linesOf text).map Script.request :=
    if_neg (by rw [hstop]; exact Bool.false_ne_true)
  have hclosing : Script.closing options (executeAll recipe (linesOf text)) [] 1
        ((linesOf text).map Script.request) =
      ([.out ((executeAll recipe (linesOf text)).render options.format)],
        .completed (((turns recipe 1 (linesOf text)).filter (·.message.isErr)).map Turn.number)) := by
    unfold Script.closing
    rw [hstop, Bool.false_and, if_neg Bool.false_ne_true, List.nil_append, rejectedFrom_request recipe]
  unfold Script.run
  rw [htext]
  dsimp only
  rw [Script.runText, Script.executeFrom_eq, hrequests, Script.course, follow_request,
    tellFrom_request, hclosing]
  rfl

end Runs

/-! ## Agreement -/

/-- A script run and a console session of the same text agree, turn by turn. -/
structure Agree (path text : String) (script : ScriptOptions) (console : ConsoleOptions)
    (batch : Transcript × Recipe × Except RunFault ScriptResult) (session : ConsoleRun)
    (turns : List Turn) : Prop where
  /-- Turns are about lines of the text, in order. -/
  lines : ∀ turn ∈ turns, ∃ k line,
    turn.number = k + 1 ∧ (linesOf text)[k]? = some line ∧ turn.line = trim line
  ordered : turns.Pairwise fun s t => s.number < t.number
  recipe_eq : batch.2.1 = session.recipe
  /-- The script echoes the line of each turn and points to its message. -/
  batch_transcript : batch.1 =
    Script.header path :: turns.flatMap Turn.printed ++ [.out (session.recipe.render script.format)]
  /-- The session says the messages, and nothing else but its banner, prompts and its farewell. -/
  session_transcript : ∃ body : Transcript,
    session.transcript = console.banner.map .out ++ body
        ++ .prompt console.prompt :: Console.farewell console .endOfInput
      ∧ body.filter (fun entry => !entry.isPrompt) = turns.map Turn.message
  session_result : session.result = .ok .endOfInput
  /-- The complaints are about the lines that failed. -/
  batch_result : ∃ failed : List Nat, batch.2.2 = .ok (.completed failed)
    ∧ ∀ turn ∈ turns, turn.message.isErr = true ↔ turn.number ∈ failed

/-- **Run as a script or typed at a console, a text of ordinary lines comes to the same.** -/
theorem agree_of_ordinary (files : Files) (path text : String) (script : ScriptOptions)
    (console : ConsoleOptions) (recipe : Recipe)
    (hlines : ∀ line ∈ linesOf text, IsOrdinary console.exitWords line)
    (hread : files.read path = .ok (Utf8.encode text)) (hstop : script.stopOnError = false) :
    ∃ turns, Agree path text script console (Script.run files script recipe path)
      (Console.run console recipe (.typed text)) turns := by
  refine ⟨turns recipe 1 (linesOf text), ?_⟩
  rw [run_read recipe hread hstop, run_typed console recipe hlines]
  have hrecipe := follow_ofLine recipe hlines
  constructor
  case lines =>
    intro turn hturn
    obtain ⟨k, line, hnumber, hline, htrim⟩ := line_of_mem_turns hturn
    exact ⟨k, line, by omega, hline, htrim⟩
  case ordered => exact pairwise_turns recipe 1 (linesOf text)
  case recipe_eq => exact hrecipe.symm
  case batch_transcript =>
    show _ = Script.header path :: _ ++ [.out ((follow recipe _).render script.format)]
    rw [hrecipe]
  case session_transcript =>
    refine ⟨_, ?_, filter_tell_ofLine recipe 1 hlines⟩
    rw [ConsoleRun.after, Console.course, List.append_assoc, List.append_assoc]
    rfl
  case session_result => rfl
  case batch_result =>
    refine ⟨_, rfl, fun turn hturn => ?_⟩
    rw [List.mem_map]
    -- a number that failed belongs to one turn only
    constructor
    · exact fun herr => ⟨turn, List.mem_filter.mpr ⟨hturn, herr⟩, rfl⟩
    · rintro ⟨other, hother, hnumber⟩
      obtain ⟨hmem, herr⟩ := List.mem_filter.mp hother
      rw [← eq_of_number_eq hmem hturn hnumber]
      exact herr

/-- The two runs of a text with an accepted line, a comment, a blank line and a rejected line. -/
theorem agree_of_four_lines :
    let text := "mix flour and eggs\r\n# then\n \nfry eggs"
    let script : ScriptOptions := ⟨false, .text⟩
    let console : ConsoleOptions := ⟨["Welcome"], "> ", ["quit", "exit"], some "Bye", .json⟩
    ∃ turns, Agree "cake.recipe" text script console
      (Script.run (.ofTexts [("cake.recipe", text)]) script Recipe.empty "cake.recipe")
      (Console.run console Recipe.empty (.typed text)) turns :=
  agree_of_ordinary _ _ _ _ _ _ (by decide +kernel) rfl rfl

end RecipeScript
