import RecipeScript.Proofs.ProgramRun
import RecipeScript.Proofs.SettingsSearch

/-!
# What a run depends on

A run of the program is given a command line, an environment, files and an input, and it needs little of all that. A script
run needs the script, and to know whether a rejected line halts it. A session needs the input and the settings about
sessions. Both need the form of the report. So the two ways of running a recipe have nothing else in common, and what is
meant for one does not leak into the other (`modes_keep_apart`).

The rest is needed only to find settings. Where they are taken from a named file, neither the environment nor the places
that would be searched are looked at; and in no case are paths looked at that are not among those that may be
(`plan_of_same_paths`). So it is enough to ask about these, and to note the answers down, before the plan is taken
(`plan_of_answers`).
-/

namespace RecipeScript

variable {files files' : Files} {env env' : Environment}

theorem Script.run_congr {path : String} (h : files'.read path = files.read path) (options : ScriptOptions)
    (recipe : Recipe) : Script.run files' options recipe path = Script.run files options recipe path := by
  unfold Script.run
  rw [Files.readText_congr h]

namespace Program

variable {args : List String} {i i' : Invocation}

theorem runScript_congr {path : String} (h : files'.read path = files.read path) (options : ScriptOptions) :
    runScript files' options path = runScript files options path := by
  unfold runScript
  rw [Script.run_congr h]

/-! ## Settings and plans -/

/-- Settings from a named file depend on that file alone. -/
theorem settings_of_named {path : String} (hnamed : i.settingsFile = some path)
    (hread : files'.read path = files.read path) : settings files' env' i = settings files env i := by
  unfold settings
  rw [hnamed]
  exact Settings.load_congr hread

theorem settings_congr
    (h : ∀ path ∈ i.settingsFile.toList ++ Settings.searchPaths env, Files.SameAt files' files path) :
    settings files' env i = settings files env i := by
  cases hnamed : i.settingsFile with
  | some path =>
      refine settings_of_named hnamed (h path (List.mem_append_left _ ?_)).read
      rw [hnamed]
      exact List.mem_cons_self
  | none =>
      unfold settings
      rw [hnamed]
      exact Settings.loadDefault_congr fun path hpath => h path (List.mem_append_right _ hpath)

/-- A plan depends on the files and the environment through the settings and the script. -/
theorem plan_congr
    (h : ∀ i, CommandLine.demand args = .run i →
      settings files' env' i = settings files env i
        ∧ ∀ path ∈ i.script.toList, files'.read path = files.read path) :
    plan args env' files' = plan args env files := by
  cases hargs : CommandLine.demand args with
  | run i =>
      obtain ⟨hsettings, hscript⟩ := h i hargs
      cases hloaded : settings files env i with
      | error fault =>
          rw [plan_of_unsettled hargs hloaded, plan_of_unsettled hargs (hsettings.trans hloaded)]
      | ok s =>
          cases hpath : i.script with
          | none => rw [plan_of_console hargs hloaded hpath, plan_of_console hargs (hsettings.trans hloaded) hpath]
          | some path =>
              have hread : files'.read path = files.read path := by
                apply hscript
                rw [hpath]
                exact List.mem_cons_self
              rw [plan_of_script hargs hloaded hpath, plan_of_script hargs (hsettings.trans hloaded) hpath,
                runScript_congr hread]
  | help | version | unclear =>
      unfold plan
      rw [hargs]

/-- **No other paths are looked at** than those that may be. -/
theorem plan_of_same_paths (h : ∀ path ∈ paths args env, Files.SameAt files' files path) :
    plan args env files' = plan args env files := by
  refine plan_congr fun i hargs => ?_
  have hpaths : paths args env = i.script.toList ++ i.settingsFile.toList ++ Settings.searchPaths env := by
    unfold paths
    rw [hargs]
  rw [hpaths, List.append_assoc] at h
  exact ⟨settings_congr fun path hpath => h path (List.mem_append_right _ hpath),
    fun path hpath => (h path (List.mem_append_left _ hpath)).read⟩

/-- The answers about the paths that may be looked at are enough to take the plan. -/
theorem plan_of_answers (args : List String) (env : Environment) (files : Files) :
    plan args env
        (.ofAnswers ((paths args env).map fun path => (path, files.isThere path, files.read path))) =
      plan args env files :=
  plan_of_same_paths fun _ hpath => Files.sameAt_ofAnswers hpath

/-! ## Two runs -/

/-- All that a run of the program is given. -/
structure Circumstances where
  args : List String
  env : Environment
  files : Files
  input : ConsoleInput

namespace Circumstances

variable {c c' : Circumstances} {s s' : Settings}

/-- How the program ends. -/
def exit (c : Circumstances) : Exit :=
  run c.args c.env c.files c.input

/-- The command line asks for the invocation `i`, and the settings for it are `s`. -/
structure IsSettled (c : Circumstances) (i : Invocation) (s : Settings) : Prop where
  asked : CommandLine.demand c.args = .run i
  loaded : settings c.files c.env i = .ok s

/-- The form of the report: the one asked for, or else the one that is set. -/
def reportFormat (i : Invocation) (s : Settings) : ReportFormat :=
  i.format.getD s.output.format

theorem exit_of_script {path : String} (h : c.IsSettled i s) (hpath : i.script = some path) :
    c.exit = runScript c.files ⟨s.batch.stopOnError, reportFormat i s⟩ path :=
  run_of_script h.asked h.loaded hpath

theorem exit_of_console (h : c.IsSettled i s) (hnone : i.script = none) :
    c.exit = converse (consoleOptions s.repl (reportFormat i s)) s.repl.handleCtrlC c.input :=
  run_of_console h.asked h.loaded hnone

theorem exit_of_plan (hplan : plan c'.args c'.env c'.files = plan c.args c.env c.files) (hinput : c'.input = c.input) :
    c'.exit = c.exit := by
  unfold exit run
  rw [hplan, hinput]

end Circumstances

open Circumstances (reportFormat)

/--
**What is meant for one way of running a recipe makes no difference to the other.** Any two runs of the same script end
alike if a rejected line halts both or neither and if their reports have the same form, whatever the input, the settings
about sessions and the rest of the circumstances are. Any two sessions with the same input end alike if the settings about
sessions and the form of the report are the same. And where the command line names a settings file, two runs with the same
command line and input end alike if that file and the script are the same, whatever the environment and all other files are.
-/
theorem modes_keep_apart (c c' : Circumstances) :
    (∀ i i' s s' path, c.IsSettled i s → c'.IsSettled i' s' → i.script = some path → i'.script = some path →
        c'.files.read path = c.files.read path → s'.batch.stopOnError = s.batch.stopOnError →
        reportFormat i' s' = reportFormat i s → c'.exit = c.exit)
      ∧ (∀ i i' s s', c.IsSettled i s → c'.IsSettled i' s' → i.script = none → i'.script = none →
        c'.input = c.input → s'.repl = s.repl → reportFormat i' s' = reportFormat i s → c'.exit = c.exit)
      ∧ (c'.args = c.args → c'.input = c.input →
        (∀ i, CommandLine.demand c.args = .run i → ∃ path, i.settingsFile = some path
          ∧ ∀ named ∈ path :: i.script.toList, c'.files.read named = c.files.read named) →
        c'.exit = c.exit) := by
  refine ⟨fun i i' s s' path h h' hpath hpath' hread hstop hform => ?_,
    fun i i' s s' h h' hnone hnone' hinput hrepl hform => ?_, fun hargs hinput hnamed => ?_⟩
  · rw [Circumstances.exit_of_script h hpath, Circumstances.exit_of_script h' hpath', hstop, hform,
      runScript_congr hread]
  · rw [Circumstances.exit_of_console h hnone, Circumstances.exit_of_console h' hnone', hinput, hrepl, hform]
  · refine Circumstances.exit_of_plan ?_ hinput
    rw [hargs]
    refine plan_congr fun i hdemand => ?_
    obtain ⟨path, hpath, hread⟩ := hnamed i hdemand
    exact ⟨settings_of_named hpath (hread path List.mem_cons_self),
      fun named hscript => hread named (List.mem_cons_of_mem path hscript)⟩

/-- A script under settings about sessions and under others, with and without input; a session under settings about
scripts and under none, as the home directory may not be entered; and a script under named settings, in an environment that
names others. -/
theorem modes_keep_apart_of_four_files :
    let files (named found : String) : Files := .ofTexts
      [("cake.recipe", "fry eggs\nmix flour and eggs\n"), ("c.yaml", named), ("recipelang.yaml", found)]
    let quiet : ConsoleInput := { bytes := [], interrupted := false }
    let loud : ConsoleInput := { bytes := Utf8.encode "recipe\nquit\n", interrupted := true }
    let script : Circumstances :=
      ⟨["--config=c.yaml", "cake.recipe"], { bindings := [] }, files "repl:\n  prompt: '? '\n" "", quiet⟩
    let script' : Circumstances :=
      ⟨["cake.recipe", "--format", "text"], { bindings := [("HOME", "home")] }, files "" "output:\n  format: json\n", loud⟩
    let session : Circumstances :=
      ⟨["--config=c.yaml"], { bindings := [] }, files "batch:\n  stop_on_error: false\n" "", loud⟩
    let session' : Circumstances := ⟨[], { bindings := [("HOME", "home")] },
      .ofAnswers [("home/.recipelang/config.yaml", false, .error (.other "Permission denied (os error 13)"))], loud⟩
    let named : Circumstances :=
      { script with env := { bindings := [(Settings.fileVariable, "recipelang.yaml")] },
                    files := files "repl:\n  prompt: '? '\n" "repl: loud\n" }
    (script.IsSettled { script := some "cake.recipe", settingsFile := some "c.yaml" } { repl := { prompt := "? " } }
        ∧ script'.IsSettled { script := some "cake.recipe", format := some .text } { output := { format := .json } }
        ∧ script'.exit = script.exit)
      ∧ (session.IsSettled { settingsFile := some "c.yaml" } { batch := { stopOnError := false } }
        ∧ session'.IsSettled {} {}
        ∧ session'.exit = session.exit)
      ∧ named.exit = script.exit := by
  intro files quiet loud script script' session session' named
  have hscript : script.IsSettled { script := some "cake.recipe", settingsFile := some "c.yaml" }
      { repl := { prompt := "? " } } := ⟨by decide +kernel, by decide +kernel⟩
  have hscript' : script'.IsSettled { script := some "cake.recipe", format := some .text }
      { output := { format := .json } } := ⟨by decide +kernel, by decide +kernel⟩
  have hsession : session.IsSettled { settingsFile := some "c.yaml" } { batch := { stopOnError := false } } :=
    ⟨by decide +kernel, by decide +kernel⟩
  have hsession' : session'.IsSettled {} {} := ⟨by decide +kernel, by decide +kernel⟩
  refine ⟨⟨hscript, hscript', ?_⟩, ⟨hsession, hsession', ?_⟩, ?_⟩
  · exact (modes_keep_apart script script').1 _ _ _ _ "cake.recipe" hscript hscript' rfl rfl rfl rfl rfl
  · exact (modes_keep_apart session session').2.1 _ _ _ _ hsession hsession' rfl rfl rfl rfl rfl
  · refine (modes_keep_apart script named).2.2 rfl rfl fun i hdemand => ?_
    have hasked := hscript.asked.symm.trans hdemand
    cases hasked
    exact ⟨"c.yaml", rfl, by decide +kernel⟩

end Program

end RecipeScript
