import RecipeScript.Proofs.ScriptTurns

/-!
# To halt or to go on

Of two runs of one script, the one that halts at rejected lines has nothing to say that the other does
not say: up to the first rejected line it takes the same turns, and there it says that it stops. Both
are read off one division of the lines, into those in front of the first rejected line, that line and
what follows (`accepted_or_split`), so no induction is made over the two runs side by side.

If no line is rejected, the option to halt is not looked at, and the runs are equal.
-/

namespace RecipeScript

namespace Script

/-- What a halting run of a text comes to, measured by a run that goes on; line `n` halts it. -/
structure StopsShort (text : String) (recipe : Recipe) (n : Nat)
    (going stopped : Transcript × Recipe × Except RunFault ScriptResult) : Prop where
  result : stopped.2.2 = .ok (.halted n)
  /-- Both say the same up to the first complaint, which is the one about line `n`. There one of them
  says that it stops, and nothing else. -/
  transcript : ∃ line fault calm rest, IsLine text n line ∧ Instruction.ofLine line = .error fault
    ∧ (∀ entry ∈ calm, entry.isErr = false)
    ∧ let through := calm ++ [.out ("[Line " ++ toString n ++ "] " ++ trim line),
        .err ("  → " ++ ("Error: " ++ fault.message))]
      going.1 = through ++ rest
        ∧ stopped.1 = through ++ [.err ("\nExecution stopped at line " ++ toString n)]
  /-- The accepted lines before line `n` are recorded. -/
  recipe : stopped.2.1 = (acceptedIn ((linesOf text).take (n - 1))).foldl Recipe.record recipe
  steps : stopped.2.1.steps <+: going.2.1.steps

section Halting

variable {files : Files} {path text line : String} {recipe : Recipe} {front back : List String}

theorem isErr_of_mem_printed {entry : Entry} {turn : Turn} (h : turn.message.isErr = false)
    (hentry : entry ∈ turn.printed) : entry.isErr = false := by
  rcases List.mem_pair.mp hentry with rfl | rfl
  · rfl
  · cases hmessage : turn.message with
    | err message =>
        rw [hmessage] at h
        cases h
    | out message => rfl
    | prompt message => rfl

/-- More lines only add to what is printed. -/
theorem printed_prefix (recipe : Recipe) (number : Nat) (front back : List String) :
    (turns recipe number front).flatMap Turn.printed <+:
      (turns recipe number (front ++ back)).flatMap Turn.printed := by
  rw [turns_append, List.flatMap_append]
  exact List.prefix_append _ _

/-- What is printed through the line after the given ones, if that is rejected. -/
theorem printed_of_rejected (recipe : Recipe) (front : List String)
    (hline : isRejected (request line) = true) : ∃ fault, Instruction.ofLine line = .error fault
      ∧ (turns recipe 1 (front ++ [line])).flatMap Turn.printed =
        (turns recipe 1 front).flatMap Turn.printed
          ++ [.out ("[Line " ++ toString (front.length + 1) ++ "] " ++ trim line),
            .err ("  → " ++ ("Error: " ++ fault.message))] := by
  obtain ⟨fault, hfault, hturn, -⟩ := turn_of_rejected (executeAll recipe front) (1 + front.length) hline
  refine ⟨fault, hfault, ?_⟩
  rw [turns_append, hturn, List.flatMap_append, Nat.add_comm 1]
  rfl

/-- **A run is halted by its first rejected line.** -/
theorem stopsShort_of_split (format : ReportFormat) (recipe : Recipe)
    (hread : files.read path = .ok (Utf8.encode text)) (hlines : linesOf text = front ++ line :: back)
    (hfront : AreAccepted front) (hline : isRejected (request line) = true) :
    StopsShort text recipe (front.length + 1) (run files ⟨false, format⟩ recipe path)
      (run files ⟨true, format⟩ recipe path) := by
  rw [run_of_completed recipe hread fun h => (by cases h), run_of_halted recipe hread hlines rfl hfront hline]
  constructor
  case result => rfl
  case transcript =>
    obtain ⟨fault, hfault, hthrough⟩ := printed_of_rejected recipe front hline
    have hplace : IsLine text (front.length + 1) line := by
      rw [← getElem?_linesOf_iff, hlines, List.getElem?_append_right (le_refl _), Nat.sub_self,
        List.getElem?_cons_zero]
    have hcalm : ∀ entry ∈ (turns recipe 1 front).flatMap Turn.printed, entry.isErr = false := by
      intro entry hentry
      obtain ⟨turn, hturn, hprinted⟩ := List.mem_flatMap.mp hentry
      exact isErr_of_mem_printed (isErr_eq_false_of_accepted hfront hturn) hprinted
    obtain ⟨rest, hrest⟩ := printed_prefix recipe 1 (front ++ [line]) back
    rw [← List.append_cons, hthrough] at hrest
    refine ⟨line, fault, header path :: (turns recipe 1 front).flatMap Turn.printed,
      rest ++ [.out ((executeAll recipe (linesOf text)).render format)], hplace, hfault,
      List.forall_mem_cons.mpr ⟨rfl, hcalm⟩, ?_, ?_⟩
    · dsimp only
      rw [hlines, ← hrest, List.append_assoc]
      rfl
    · dsimp only
      rw [hthrough]
      rfl
  case recipe =>
    show executeAll recipe front = _
    rw [executeAll_eq, Nat.add_sub_cancel, hlines, List.take_left]
  case steps =>
    show (executeAll recipe front).steps <+: (executeAll recipe (linesOf text)).steps
    rw [hlines, executeAll_append]
    exact steps_prefix_executeAll _ _

/--
**Halting and going on agree up to the first rejected line.** A script without a text gives both runs
the same fault. Otherwise the run that goes on completes. If no line of it failed, the halting run is
the same run. If line `n` is the first that failed, the halting run is halted by line `n`, says what the
other says up to the complaint about that line and then that it stops, and has recorded the accepted
lines before it, whose steps are the first of the other run.
-/
theorem halted_and_completed_agree (files : Files) (format : ReportFormat) (recipe : Recipe)
    (path : String) :
    let going := run files ⟨false, format⟩ recipe path
    let stopped := run files ⟨true, format⟩ recipe path
    ((∀ text, files.read path ≠ .ok (Utf8.encode text)) →
      stopped = going ∧ ∃ fault, going.2.2 = .error fault)
    ∧ ∀ text, files.read path = .ok (Utf8.encode text) →
      ∃ failed, going.2.2 = .ok (.completed failed)
        ∧ (failed = [] → stopped = going)
        ∧ ∀ n more, failed = n :: more → StopsShort text recipe n going stopped := by
  intro going stopped
  constructor
  · intro htext
    obtain ⟨cause, hcause⟩ : ∃ cause, files.readText path = .error cause := by
      cases hread : files.read path with
      | error cause => exact ⟨cause, readText_of_error hread⟩
      | ok bytes => exact ⟨.notText, readText_of_not_text hread fun text h => htext text (h ▸ hread)⟩
    have hsame : ∀ options, run files options recipe path = _ :=
      fun options => run_of_error options recipe hcause
    exact ⟨(hsame _).trans (hsame _).symm, _, congrArg (·.2.2) (hsame _)⟩
  · intro text hread
    have hgoing : going = _ := run_of_completed recipe hread fun h => (by cases h)
    refine ⟨rejectedFrom 1 ((linesOf text).map request), congrArg (·.2.2) hgoing, ?_⟩
    rcases accepted_or_split (linesOf text) with haccepted | ⟨front, line, back, hlines, hfront, hline⟩
    · have hstopped : stopped = _ := run_of_completed recipe hread fun _ => haccepted
      rw [rejectedFrom_of_accepted 1 haccepted]
      exact ⟨fun _ => hstopped.trans hgoing.symm, fun n more h => (by cases h)⟩
    · rw [hlines, rejectedFrom_of_split 1 hfront hline, Nat.add_comm 1]
      refine ⟨fun h => (by cases h), fun n more h => ?_⟩
      obtain ⟨rfl, -⟩ := List.cons.inj h
      exact stopsShort_of_split format recipe hread hlines hfront hline

/-- Two runs of a script whose second and fourth lines are rejected. -/
theorem halted_by_second_line :
    let text := "mix flour and eggs\r\nfry eggs\n# then\nbake"
    let files : Files := .ofTexts [("cake.recipe", text)]
    let going := run files ⟨false, .text⟩ Recipe.empty "cake.recipe"
    let stopped := run files ⟨true, .text⟩ Recipe.empty "cake.recipe"
    files.read "cake.recipe" = .ok (Utf8.encode text)
      ∧ going.2.2 = .ok (.completed [2, 4])
      ∧ StopsShort text Recipe.empty 2 going stopped := by
  intro text files going stopped
  obtain ⟨failed, hfailed, -, hshort⟩ :=
    (halted_and_completed_agree files .text Recipe.empty "cake.recipe").2 text rfl
  have hresult : going.2.2 = .ok (.completed (rejectedFrom 1 ((linesOf text).map request))) := by
    have hgoing : going = _ := run_of_completed Recipe.empty rfl fun h => (by cases h)
    rw [hgoing]
  have hlines : rejectedFrom 1 ((linesOf text).map request) = [2, 4] := by decide +kernel
  rw [hlines] at hresult
  have hsame : failed = [2, 4] :=
    ScriptResult.completed.inj (Except.ok.inj (hfailed.symm.trans hresult))
  exact ⟨rfl, hresult, hshort 2 [4] hsame⟩

end Halting

end Script

end RecipeScript
