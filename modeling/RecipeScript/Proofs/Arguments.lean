import Mathlib.Data.List.Nodup
import Mathlib.Data.List.Perm.Basic
import RecipeScript.CommandLine

/-!
# Command lines that run the program

A command line that runs the program names a script, a settings file and a form of the report, and asks to hear
more; each of these is optional, and they may come in any order. `Wanted` is what it asks for, and its arguments
in any order are read as just that (`demand_of_perm`).

The proof goes argument by argument. Reading one argument does what the argument asks for and leaves the rest to
be read (`read_words`), and as none of the four is asked for twice, what the arguments do does not depend on their
order.
-/

namespace RecipeScript

namespace CommandLine

/-! ## Arguments -/

/-- One of the things that a command line may ask for, with its spelling: a value is `joined` to its option by an
equals sign or is an argument of its own, and the wish to hear more is a `letter` or a word. -/
inductive Argument where
  | script (path : String)
  | settingsFile (path : String) (joined : Bool)
  | format (form : ReportFormat) (joined : Bool)
  | verbose (letter : Bool)

/-- What an argument is about. -/
inductive ArgumentKind where
  | script | settingsFile | format | verbose
deriving DecidableEq

namespace Argument

/-- What the argument is about. -/
def kind : Argument → ArgumentKind
  | script _ => .script
  | settingsFile _ _ => .settingsFile
  | format _ _ => .format
  | verbose _ => .verbose

/-- The argument as it is written. -/
def words : Argument → List String
  | script path => [path]
  | settingsFile path false => ["--config", path]
  | settingsFile path true => ["--config=" ++ path]
  | format form false => ["--format", Vocabulary.name form]
  | format form true => ["--format=" ++ Vocabulary.name form]
  | verbose false => ["--verbose"]
  | verbose true => ["-v"]

/-- A path is not empty, and cannot be mistaken for an option where it stands alone. -/
def IsProper : Argument → Prop
  | script path => path ≠ "" ∧ looksLikeOption path = false
  | settingsFile path joined => path ≠ "" ∧ (joined = false → looksLikeOption path = false)
  | format _ _ => True
  | verbose _ => True

/-- Does what the argument asks for. -/
def apply (i : Invocation) : Argument → Invocation
  | script path => { i with script := some path }
  | settingsFile path _ => { i with settingsFile := some path }
  | format form _ => { i with format := some form }
  | verbose _ => { i with verbose := true }

/-- Arguments about different things do not get in each other's way. -/
theorem apply_comm {a b : Argument} (h : a.kind ≠ b.kind) (i : Invocation) :
    apply (apply i a) b = apply (apply i b) a := by
  cases a <;> cases b <;> first | rfl | exact absurd rfl h

end Argument

/-- Nothing has been asked for yet about something. -/
def Lacks (i : Invocation) : ArgumentKind → Prop
  | .script => i.script = none
  | .settingsFile => i.settingsFile = none
  | .format => i.format = none
  | .verbose => i.verbose = false

theorem lacks_empty (k : ArgumentKind) : Lacks {} k := by
  cases k <;> rfl

theorem lacks_apply {i : Invocation} {k : ArgumentKind} {a : Argument} (h : Lacks i k) (hk : a.kind ≠ k) :
    Lacks (a.apply i) k := by
  cases a <;> cases k <;> first | exact h | exact absurd rfl hk

/-! ## Reading one argument -/

section Reading

variable {i : Invocation} {path : String}

theorem setScript_of_lacks (h : Lacks i .script) (hpath : path ≠ "") :
    setScript i path = some { i with script := some path } := by
  have hscript : i.script = none := h
  unfold setScript
  rw [hscript]
  simp [hpath]

theorem setSettingsFile_of_lacks (h : Lacks i .settingsFile) (hpath : path ≠ "") :
    setSettingsFile i path = some { i with settingsFile := some path } := by
  have hfile : i.settingsFile = none := h
  unfold setSettingsFile
  rw [hfile]
  simp [hpath]

theorem setFormat_of_lacks (h : Lacks i .format) (form : ReportFormat) :
    setFormat i (Vocabulary.name form) = some { i with format := some form } := by
  have hformat : i.format = none := h
  unfold setFormat
  rw [hformat, Vocabulary.ofName?_name]
  rfl

theorem setVerbose_of_lacks (h : Lacks i .verbose) : setVerbose i = some { i with verbose := true } := by
  have hverbose : i.verbose = false := h
  unfold setVerbose
  rw [hverbose]
  rfl

/-- An option is cut at its first equals sign. -/
theorem takeWhile_optionName {name : List Char} (h : '=' ∉ name) (rest : List Char) :
    (name ++ rest).takeWhile (· ≠ '=') = name ++ rest.takeWhile (· ≠ '=') := by
  refine List.takeWhile_append_of_pos fun c hc => decide_eq_true fun heq => h ?_
  rw [← heq]
  exact hc

theorem splitOption_joined {name value : List Char} (h : '=' ∉ name) :
    splitOption (name ++ '=' :: value) = (String.ofList name, some (String.ofList value)) := by
  unfold splitOption
  rw [takeWhile_optionName h, List.takeWhile_cons_of_neg (by simp), List.append_nil]
  dsimp only
  rw [List.drop_left]

theorem splitOption_alone {name : List Char} (h : '=' ∉ name) : splitOption name = (String.ofList name, none) := by
  have htake : name.takeWhile (· ≠ '=') = name := by simpa using takeWhile_optionName h []
  unfold splitOption
  rw [htake]
  dsimp only
  rw [List.drop_length]

/-- An argument that does not look like an option is the name of a script. -/
theorem read_of_not_looksLikeOption {arg : String} (h : looksLikeOption arg = false) (args : List String) :
    read i (arg :: args) = andThen (setScript i arg) fun i => read i args := by
  unfold looksLikeOption at h
  rw [read]
  split at h
  · cases h
  · rename_i hoption
    split
    · rename_i hdashes
      exact absurd hdashes (hoption '-' [])
    · rename_i option _ hdashes
      exact absurd hdashes (hoption '-' option)
    · rename_i letter letters _ _ hletter
      exact absurd hletter (hoption letter letters)
    · rfl

/-- An argument with two dashes and more behind them is an option. -/
theorem read_option {option : List Char} {name : String} {value : Option String} (args : List String)
    (hne : option ≠ []) (h : splitOption option = (name, value)) :
    read i (String.ofList ('-' :: '-' :: option) :: args) =
      readOption i (fun i => read i args)
        (fun set => match args with
          | [] => .unclear
          | value :: args =>
            if looksLikeOption value then .unclear else andThen (set value) fun i => read i args) name value := by
  obtain ⟨c, cs, rfl⟩ := List.exists_cons_of_ne_nil hne
  rw [read, String.toList_ofList]
  exact congrArg (fun found => readOption i _ _ found.1 found.2) h

/-- An option of this name takes a value, which `set` takes in. -/
structure TakesValue (name : List Char) (set : Invocation → String → Option Invocation) : Prop where
  ne_nil : name ≠ []
  not_sign : '=' ∉ name
  apart : ∀ i next nextValue, readOption i next nextValue (String.ofList name) none = nextValue (set i)
  joined : ∀ i next nextValue value,
    readOption i next nextValue (String.ofList name) (some value) = andThen (set i value) next

theorem takesValue_config : TakesValue "config".toList setSettingsFile :=
  ⟨by decide, by decide, fun _ _ _ => rfl, fun _ _ _ _ => rfl⟩

theorem takesValue_format : TakesValue "format".toList setFormat :=
  ⟨by decide, by decide, fun _ _ _ => rfl, fun _ _ _ _ => rfl⟩

section Value

variable {i' : Invocation} {name : List Char} {value : String} {set : Invocation → String → Option Invocation}

/-- The value is the next argument. -/
theorem TakesValue.read_apart (h : TakesValue name set) (hvalue : looksLikeOption value = false)
    (hset : set i value = some i') (rest : List String) :
    read i (String.ofList ('-' :: '-' :: name) :: value :: rest) = read i' rest := by
  rw [read_option (value :: rest) h.ne_nil (splitOption_alone h.not_sign), h.apart]
  dsimp only
  rw [hvalue, hset]
  rfl

/-- The value comes behind an equals sign. -/
theorem TakesValue.read_joined (h : TakesValue name set) (hset : set i value = some i') (rest : List String) :
    read i (("--" ++ String.ofList name ++ "=" ++ value) :: rest) = read i' rest := by
  have hchars : "--" ++ String.ofList name ++ "=" ++ value =
      String.ofList ('-' :: '-' :: (name ++ '=' :: value.toList)) := by
    rw [← String.toList_inj]
    simp
  rw [hchars, read_option rest (by simp) (splitOption_joined h.not_sign), h.joined, String.ofList_toList, hset]
  rfl

end Value

end Reading

/-- **Reading an argument does what it asks for**, and goes on with what is behind it. -/
theorem read_words {i : Invocation} {a : Argument} (hproper : a.IsProper) (hlacks : Lacks i a.kind)
    (rest : List String) : read i (a.words ++ rest) = read (a.apply i) rest := by
  cases a with
  | script path =>
      show read i (path :: rest) = _
      rw [read_of_not_looksLikeOption hproper.2, setScript_of_lacks hlacks hproper.1]
      rfl
  | settingsFile path joined =>
      have hset := setSettingsFile_of_lacks hlacks hproper.1
      cases joined with
      | false => exact takesValue_config.read_apart (hproper.2 rfl) hset rest
      | true => exact takesValue_config.read_joined hset rest
  | format form joined =>
      have hset := setFormat_of_lacks hlacks form
      cases joined with
      | false =>
          have hform : looksLikeOption (Vocabulary.name form) = false := by cases form <;> decide
          exact takesValue_format.read_apart hform hset rest
      | true => exact takesValue_format.read_joined hset rest
  | verbose letter =>
      cases letter with
      | false =>
          show read i (String.ofList ('-' :: '-' :: "verbose".toList) :: rest) = _
          rw [read_option rest (by decide) (splitOption_alone (by decide))]
          show andThen (setVerbose i) _ = _
          rw [setVerbose_of_lacks hlacks]
          rfl
      | true =>
          show andThen (setVerbose i) (fun i => readLetters i (fun i => read i rest) []) = _
          rw [setVerbose_of_lacks hlacks]
          rfl

/-- Reading arguments that ask for different things does all that they ask for. -/
theorem read_flatMap_words {i : Invocation} {arguments : List Argument} (hproper : ∀ a ∈ arguments, a.IsProper)
    (hlacks : ∀ a ∈ arguments, Lacks i a.kind) (hnodup : (arguments.map Argument.kind).Nodup) :
    read i (arguments.flatMap Argument.words) = .run (arguments.foldl Argument.apply i) := by
  induction arguments generalizing i with
  | nil => rfl
  | cons a arguments ih =>
      rw [List.map_cons, List.nodup_cons] at hnodup
      rw [List.flatMap_cons, List.foldl_cons,
        read_words (hproper a List.mem_cons_self) (hlacks a List.mem_cons_self)]
      refine ih (fun b hb => hproper b (List.mem_cons_of_mem a hb)) (fun b hb => ?_) hnodup.2
      -- what `a` has asked for is nothing that those behind it are about
      refine lacks_apply (hlacks b (List.mem_cons_of_mem a hb)) fun hkind => hnodup.1 ?_
      rw [hkind]
      exact List.mem_map_of_mem hb

/-! ## Command lines -/

/-- What a command line asks for: each of four things or not, with the spelling of its argument. -/
structure Wanted where
  script : Option String := none
  settingsFile : Option (String × Bool) := none
  format : Option (ReportFormat × Bool) := none
  verbose : Option Bool := none

namespace Wanted

/-- The arguments, in some order. -/
def arguments (w : Wanted) : List Argument :=
  (w.script.map .script).toList ++ (w.settingsFile.map fun (path, joined) => .settingsFile path joined).toList
    ++ (w.format.map fun (form, joined) => .format form joined).toList ++ (w.verbose.map .verbose).toList

/-- What is asked for, spelling apart. -/
def invocation (w : Wanted) : Invocation where
  script := w.script
  settingsFile := w.settingsFile.map Prod.fst
  format := w.format.map Prod.fst
  verbose := w.verbose.isSome

theorem nodup_kind_arguments (w : Wanted) : (w.arguments.map Argument.kind).Nodup := by
  obtain ⟨script, settingsFile, format, verbose⟩ := w
  cases script <;> cases settingsFile <;> cases format <;> cases verbose <;> simp [arguments, Argument.kind]

theorem foldl_apply_arguments (w : Wanted) : w.arguments.foldl Argument.apply {} = w.invocation := by
  obtain ⟨script, settingsFile, format, verbose⟩ := w
  cases script <;> cases settingsFile <;> cases format <;> cases verbose <;> rfl

/-- **Arguments in any order are read as what they ask for.** -/
theorem demand_of_perm {w : Wanted} {arguments : List Argument} (hperm : arguments.Perm w.arguments)
    (hproper : ∀ a ∈ arguments, a.IsProper) :
    demand (arguments.flatMap Argument.words) = .run w.invocation := by
  have hnodup : (arguments.map Argument.kind).Nodup :=
    (hperm.map Argument.kind).nodup_iff.mpr w.nodup_kind_arguments
  have hcomm : ∀ a ∈ arguments, ∀ b ∈ arguments, ∀ i : Invocation, (a.apply i |> b.apply) = (b.apply i |> a.apply) := by
    intro a ha b hb i
    by_cases h : a.kind = b.kind
    · rw [List.inj_on_of_nodup_map hnodup ha hb h]
    · exact Argument.apply_comm h i
  unfold demand
  rw [read_flatMap_words hproper (fun a _ => lacks_empty a.kind) hnodup, hperm.foldl_eq' hcomm,
    foldl_apply_arguments]

end Wanted

end CommandLine

end RecipeScript
