import RecipeScript.Program
import RecipeScript.Proofs.Arguments
import RecipeScript.Proofs.Decoding

/-!
# The program is its runs

Whatever the program prints, a script run or a console session has said before: the program adds the message about
a script that cannot be read, and nothing else. Which of the two is run, and how, is decided by the command line and
by the settings, where the command line has the last word about the form of the report.

The exit code tells whether the run came to a result. A halted script has one, so it counts as a success.
-/

namespace RecipeScript

open CommandLine (Argument Wanted)

namespace Program

variable {args : List String} {env : Environment} {files : Files} {input : ConsoleInput} {i : Invocation}

/-! ## The plan -/

theorem plan_of_unsettled {fault : SettingsFault} (hargs : CommandLine.demand args = .run i)
    (h : settings files env i = .error fault) : plan args env files = .finish ⟨1, ""⟩ := by
  unfold plan
  rw [hargs]
  dsimp only
  rw [h]

theorem plan_of_script {s : Settings} {path : String} (hargs : CommandLine.demand args = .run i)
    (h : settings files env i = .ok s) (hpath : i.script = some path) :
    plan args env files =
      .finish (runScript files ⟨s.batch.stopOnError, i.format.getD s.output.format⟩ path) := by
  unfold plan
  rw [hargs]
  dsimp only
  rw [h]
  dsimp only
  rw [hpath]

theorem plan_of_console {s : Settings} (hargs : CommandLine.demand args = .run i)
    (h : settings files env i = .ok s) (hnone : i.script = none) :
    plan args env files =
      .converse (consoleOptions s.repl (i.format.getD s.output.format)) s.repl.handleCtrlC := by
  unfold plan
  rw [hargs]
  dsimp only
  rw [h]
  dsimp only
  rw [hnone]

theorem run_of_unsettled {fault : SettingsFault} (hargs : CommandLine.demand args = .run i)
    (h : settings files env i = .error fault) : run args env files input = ⟨1, ""⟩ := by
  unfold run
  rw [plan_of_unsettled hargs h]

theorem run_of_script {s : Settings} {path : String} (hargs : CommandLine.demand args = .run i)
    (h : settings files env i = .ok s) (hpath : i.script = some path) :
    run args env files input =
      runScript files ⟨s.batch.stopOnError, i.format.getD s.output.format⟩ path := by
  unfold run
  rw [plan_of_script hargs h hpath]

theorem run_of_console {s : Settings} (hargs : CommandLine.demand args = .run i)
    (h : settings files env i = .ok s) (hnone : i.script = none) :
    run args env files input =
      converse (consoleOptions s.repl (i.format.getD s.output.format)) s.repl.handleCtrlC input := by
  unfold run
  rw [plan_of_console hargs h hnone]

/-! ## The exit -/

/-- A program ends with the code 0 after a result, and with 1 after a fault. -/
def Tells {ε α : Type} (code : Nat) (result : Except ε α) : Prop :=
  (code = 1 ↔ ∃ fault, result = .error fault) ∧ (code = 0 ↔ ∃ a, result = .ok a)

theorem tells_ok {ε α : Type} (a : α) : Tells 0 (Except.ok a : Except ε α) :=
  ⟨⟨fun h => absurd h (by decide), fun h => by obtain ⟨fault, h⟩ := h; cases h⟩, ⟨fun _ => ⟨a, rfl⟩, fun _ => rfl⟩⟩

theorem tells_error {ε α : Type} (fault : ε) : Tells 1 (Except.error fault : Except ε α) :=
  ⟨⟨fun _ => ⟨fault, rfl⟩, fun _ => rfl⟩, ⟨fun h => absurd h (by decide), fun h => by obtain ⟨a, h⟩ := h; cases h⟩⟩

/-- What a run says, as it stands on a terminal: every message and every complaint with a line feed behind it, prompts as
they are, one after the other. -/
inductive IsShown : Transcript → String → Prop where
  | nil : IsShown [] ""
  | out {entries : Transcript} {text : String} (message : String) (h : IsShown entries text) :
      IsShown (.out message :: entries) (message ++ "\n" ++ text)
  | err {entries : Transcript} {text : String} (message : String) (h : IsShown entries text) :
      IsShown (.err message :: entries) (message ++ "\n" ++ text)
  | prompt {entries : Transcript} {text : String} (asked : String) (h : IsShown entries text) :
      IsShown (.prompt asked :: entries) (asked ++ text)

theorem shown_cons (entry : Entry) (entries : Transcript) :
    Transcript.shown (entry :: entries) = entry.shown ++ entries.shown := by
  unfold Transcript.shown
  rw [← String.toList_inj, String.toList_append, String.toList_intercalate, String.toList_intercalate]
  cases entries with
  | nil => simp
  | cons next entries => simp [List.intercalate_cons_cons]

theorem shown_append (front back : Transcript) :
    Transcript.shown (front ++ back) = front.shown ++ back.shown := by
  induction front with
  | nil => exact String.empty_append.symm
  | cons entry front ih => rw [List.cons_append, shown_cons, shown_cons, ih, String.append_assoc]

/-- **A transcript is shown in one way.** -/
theorem isShown_iff {transcript : Transcript} {text : String} :
    IsShown transcript text ↔ text = transcript.shown := by
  constructor
  · intro h
    induction h with
    | nil => rfl
    | out message h ih | err message h ih | prompt asked h ih =>
        rw [shown_cons, ← ih]
        rfl
  · rintro rfl
    induction transcript with
    | nil => exact .nil
    | cons entry transcript ih =>
        rw [shown_cons]
        cases entry with
        | out message => exact .out message ih
        | err message => exact .err message ih
        | prompt asked => exact .prompt asked ih

/-- What is said after the transcript of a script. -/
def lastWords {α : Type} : Except RunFault α → Transcript
  | .ok _ => []
  | .error fault => [.out fault.announcement]

theorem runScript_tells (files : Files) (options : ScriptOptions) (path : String) :
    let script := Script.run files options Recipe.empty path
    IsShown (script.1 ++ lastWords script.2.2) (runScript files options path).printed ∧
      Tells (runScript files options path).code script.2.2 := by
  unfold runScript
  obtain ⟨transcript, recipe, result⟩ := Script.run files options Recipe.empty path
  cases result with
  | ok a =>
      refine ⟨isShown_iff.mpr ?_, tells_ok a⟩
      rw [lastWords, List.append_nil]
  | error fault =>
      refine ⟨isShown_iff.mpr ?_, tells_error fault⟩
      dsimp only
      rw [shown_append, lastWords, shown_cons, Entry.shown, String.append_assoc]
      exact congrArg (transcript.shown ++ ·) String.append_empty.symm

theorem exitOf_tells (run : ConsoleRun) :
    IsShown run.transcript (exitOf run).printed ∧ Tells (exitOf run).code run.result := by
  obtain ⟨transcript, recipe, result⟩ := run
  cases result with
  | ok reason => exact ⟨isShown_iff.mpr rfl, tells_ok reason⟩
  | error fault => exact ⟨isShown_iff.mpr rfl, tells_error fault⟩

/-- A session that is not interrupted, or that handles it, ends as its run does. -/
theorem converse_of_handled {options : ConsoleOptions} {handlesInterrupt : Bool}
    (h : input.interrupted = true → handlesInterrupt = true) :
    converse options handlesInterrupt input = exitOf (Console.run options Recipe.empty input) := by
  unfold converse
  rw [if_neg]
  intro hboth
  rw [Bool.and_eq_true] at hboth
  rw [h hboth.1] at hboth
  exact absurd hboth.2 (by decide)

/-! ## Runs -/

/--
**The program is its runs.** For a command line that asks for up to four things, in any order and spelling: if the
settings cannot be loaded, nothing is printed and the exit code is 1. Otherwise a script, if one is named, is run on
an empty recipe with the settings about scripts, and what is printed is its transcript, and then the fault if it has
one. If none is named, a console session is held on an empty recipe with the settings about sessions, and what is
printed is its transcript. A line feed follows every message, and none a prompt. The form of the report is the one asked
for, or else the one that is set; and the exit code is 1 if the run has a fault, and 0 if it has a result.
-/
theorem run_of_wanted (w : Wanted) (arguments : List Argument) (hperm : arguments.Perm w.arguments)
    (hproper : ∀ a ∈ arguments, a.IsProper) (env : Environment) (files : Files) (input : ConsoleInput) :
    let exit := run (arguments.flatMap Argument.words) env files input
    let loaded := match w.settingsFile with
      | some (path, _) => Settings.load files path
      | none => Settings.loadDefault files env
    (∀ fault, loaded = .error fault → exit = ⟨1, ""⟩)
      ∧ ∀ s, loaded = .ok s →
        let format := (w.format.map Prod.fst).getD s.output.format
        (∀ path, w.script = some path →
          let script := Script.run files ⟨s.batch.stopOnError, format⟩ Recipe.empty path
          IsShown (script.1 ++ lastWords script.2.2) exit.printed ∧ Tells exit.code script.2.2)
        ∧ (w.script = none → (input.interrupted = true → s.repl.handleCtrlC = true) →
          let session := Console.run
            { banner := if s.repl.showBanner then banner else []
              prompt := s.repl.prompt
              exitWords := ["quit", "exit"]
              farewell := some Console.defaultFarewell
              format := format } Recipe.empty input
          IsShown session.transcript exit.printed ∧ Tells exit.code session.result) := by
  intro exit loaded
  have hargs := Wanted.demand_of_perm hperm hproper
  have hloaded : settings files env w.invocation = loaded := by
    obtain ⟨script, settingsFile, format, verbose⟩ := w
    cases settingsFile with
    | none => rfl
    | some spelled => rfl
  refine ⟨fun fault h => run_of_unsettled hargs (hloaded.trans h), fun s h => ⟨?_, ?_⟩⟩
  · intro path hpath
    have hexit : exit = _ := run_of_script hargs (hloaded.trans h) hpath
    rw [hexit]
    exact runScript_tells files _ path
  · intro hnone hhandled
    have hexit : exit = _ := run_of_console hargs (hloaded.trans h) hnone
    rw [hexit, converse_of_handled hhandled]
    exact exitOf_tells _

/-- A script that is run with four arguments out of order, and the session that is held if the script is left out: what
they say, and how it is printed. -/
theorem run_of_four_arguments :
    let talking : Wanted := { settingsFile := some ("c.yaml", false), format := some (.json, true), verbose := some true }
    let running : Wanted := { talking with script := some "cake.recipe" }
    let options : List Argument := [.format .json true, .verbose true, .settingsFile "c.yaml" false]
    let arguments : List Argument := [.format .json true, .verbose true, .script "cake.recipe", .settingsFile "c.yaml" false]
    let files : Files := .ofTexts
      [("c.yaml", "repl:\n  prompt: '? '\n  show_banner: false\n"), ("cake.recipe", "mix flour and eggs\nfry\n")]
    let input : ConsoleInput := { bytes := Utf8.encode "fry\nquit\n", interrupted := false }
    let exit (arguments : List Argument) := run (arguments.flatMap Argument.words) { bindings := [] } files input
    let said : Transcript := [.out "Executing recipe from: cake.recipe\n", .out "[Line 1] mix flour and eggs",
      .out "  → ✓ Step 1: Mix flour and eggs", .out "[Line 2] fry", .err "  → Error: Invalid command",
      .err "\nExecution stopped at line 2"]
    let talked : Transcript := [.prompt "? ", .err "Error: Invalid command", .prompt "? ", .out "\nHappy cooking! 👨‍🍳"]
    (arguments.Perm running.arguments ∧ options.Perm talking.arguments ∧ ∀ a ∈ arguments, a.IsProper)
      ∧ Settings.load files "c.yaml" = .ok { repl := { prompt := "? ", showBanner := false } }
      ∧ (IsShown said (exit arguments).printed
        ∧ (exit arguments).printed =
          "Executing recipe from: cake.recipe\n\n[Line 1] mix flour and eggs\n  → ✓ Step 1: Mix flour and eggs\n" ++
            "[Line 2] fry\n  → Error: Invalid command\n\nExecution stopped at line 2\n"
        ∧ (exit arguments).code = 0)
      ∧ IsShown talked (exit options).printed
        ∧ (exit options).printed = "? Error: Invalid command\n? \nHappy cooking! 👨‍🍳\n"
        ∧ (exit options).code = 0 := by
  intro talking running options arguments files input exit said talked
  have hrunning : ([_, _] ++ [_, _] : List Argument).Perm running.arguments := List.perm_append_comm
  have htalking : ([_, _] ++ [_] : List Argument).Perm talking.arguments := List.perm_append_comm
  have hproper : ∀ a ∈ arguments, a.IsProper := by
    simp [arguments, Argument.IsProper, CommandLine.looksLikeOption]
  have hsub : options ⊆ arguments := by simp [options, arguments]
  have hload : Settings.load files "c.yaml" = .ok { repl := { prompt := "? ", showBanner := false } } := by
    decide +kernel
  -- the two runs themselves, which know nothing of the program
  have hscript : (Script.run files ⟨true, .json⟩ Recipe.empty "cake.recipe").1
        ++ lastWords (Script.run files ⟨true, .json⟩ Recipe.empty "cake.recipe").2.2 = said
      ∧ (Script.run files ⟨true, .json⟩ Recipe.empty "cake.recipe").2.2 = .ok (.halted 2) := by
    decide +kernel
  have hsession : (Console.run (consoleOptions { prompt := "? ", showBanner := false } .json) Recipe.empty input).transcript
        = talked
      ∧ (Console.run (consoleOptions { prompt := "? ", showBanner := false } .json) Recipe.empty input).result
        = .ok .command := by
    decide +kernel
  obtain ⟨hshown, hcode⟩ :=
    ((run_of_wanted running arguments hrunning hproper { bindings := [] } files input).2 _ hload).1 "cake.recipe" rfl
  obtain ⟨hshown', hcode'⟩ :=
    ((run_of_wanted talking options htalking (fun a ha => hproper a (hsub ha)) { bindings := [] } files input).2 _ hload).2
      rfl fun h => (by cases h)
  have hsaid : IsShown said (exit arguments).printed := by
    rw [← hscript.1]
    exact hshown
  have htalked : IsShown talked (exit options).printed := by
    rw [← hsession.1]
    exact hshown'
  exact ⟨⟨hrunning, htalking, hproper⟩, hload,
    ⟨hsaid, (isShown_iff.mp hsaid).trans (by decide +kernel), hcode.2.mpr ⟨.halted 2, hscript.2⟩⟩,
    htalked, (isShown_iff.mp htalked).trans (by decide +kernel), hcode'.2.mpr ⟨.command, hsession.2⟩⟩

end Program

end RecipeScript
