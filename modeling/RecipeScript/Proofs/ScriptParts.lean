import RecipeScript.Proofs.ScriptTurns

/-!
# Scripts in parts

A script can be cut in two wherever a line ends: to run its parts one after the other is to run it
whole. Two counts are kept meanwhile, and the cut treats them differently. Steps are counted by the
recipe, which is handed on from one part to the next, so their numbers need no correction. Lines are
counted by the run, which begins anew with each part, so the numbers of the second part fall short by
the number of line feeds in the first (`turns_linesOf_append`, `rejectedFrom_linesOf_append`).

Which line halts a run does not depend on the recipe (`halted_iff`).
-/

namespace RecipeScript

namespace Script

/-- A run that completes: it prints the header, these turns and the recipe, and these lines failed. -/
structure Completes (path : String) (format : ReportFormat)
    (run : Transcript × Recipe × Except RunFault ScriptResult) (turns : List Turn) (failed : List Nat) :
    Prop where
  transcript : run.1 =
    header path :: (turns.flatMap Turn.printed ++ [.out (run.2.1.render format)])
  result : run.2.2 = .ok (.completed failed)

section Parts

variable {files : Files} {path text front back : String} {recipe : Recipe}

theorem executeAll_linesOf_append (recipe : Recipe) (back : String)
    (hends : Lines.EndsLine '\n' front.toList) : executeAll recipe (linesOf (front ++ back)) =
      executeAll (executeAll recipe (linesOf front)) (linesOf back) := by
  rw [linesOf_append back hends, executeAll_append]

theorem turns_linesOf_append (recipe : Recipe) (back : String)
    (hends : Lines.EndsLine '\n' front.toList) : turns recipe 1 (linesOf (front ++ back)) =
      turns recipe 1 (linesOf front)
        ++ (turns (executeAll recipe (linesOf front)) 1 (linesOf back)).map
          (Turn.later (front.toList.count '\n')) := by
  rw [linesOf_append back hends, turns_append, length_linesOf hends, turns_add]

theorem rejectedFrom_linesOf_append (back : String) (hends : Lines.EndsLine '\n' front.toList) :
    rejectedFrom 1 ((linesOf (front ++ back)).map request) =
      rejectedFrom 1 ((linesOf front).map request)
        ++ (rejectedFrom 1 ((linesOf back).map request)).map (· + front.toList.count '\n') := by
  rw [linesOf_append back hends, List.map_append, rejectedFrom_append, List.length_map,
    length_linesOf hends, rejectedFrom_add]

theorem completes_of_read (format : ReportFormat) (recipe : Recipe)
    (hread : files.read path = .ok (Utf8.encode text)) :
    Completes path format (run files ⟨false, format⟩ recipe path) (turns recipe 1 (linesOf text))
      (rejectedFrom 1 ((linesOf text).map request)) := by
  rw [run_of_completed recipe hread fun h => (by cases h)]
  exact ⟨rfl, rfl⟩

theorem recipe_of_read (format : ReportFormat) (recipe : Recipe)
    (hread : files.read path = .ok (Utf8.encode text)) :
    (run files ⟨false, format⟩ recipe path).2.1 = executeAll recipe (linesOf text) := by
  rw [run_of_completed recipe hread fun h => (by cases h)]

/-- **A halting run is halted by the first line that fails in a run that goes on.** -/
theorem halted_iff (format : ReportFormat) (recipe : Recipe)
    (hread : files.read path = .ok (Utf8.encode text)) {n : Nat} :
    (run files ⟨true, format⟩ recipe path).2.2 = .ok (.halted n) ↔
      (rejectedFrom 1 ((linesOf text).map request)).head? = some n := by
  rcases accepted_or_split (linesOf text) with haccepted | ⟨front, line, back, hlines, hfront, hline⟩
  · rw [run_of_completed recipe hread fun _ => haccepted, rejectedFrom_of_accepted 1 haccepted]
    constructor
    · intro h
      cases h
    · intro h
      cases h
  · rw [run_of_halted recipe hread hlines rfl hfront hline, hlines, rejectedFrom_of_split 1 hfront hline,
      List.head?_cons, Nat.add_comm 1, Except.ok.injEq, ScriptResult.halted.injEq, Option.some.injEq]

/-- **What halts the first part halts the whole**, and nothing of the second part is looked at. -/
theorem run_append_of_halted {whole : String} (format : ReportFormat) (recipe : Recipe)
    (hends : Lines.EndsLine '\n' front.toList) (hfront : files.read path = .ok (Utf8.encode front))
    (hwhole : files.read whole = .ok (Utf8.encode (front ++ back))) {n : Nat}
    (h : (run files ⟨true, format⟩ recipe path).2.2 = .ok (.halted n)) :
    (run files ⟨true, format⟩ recipe whole).1.tail = (run files ⟨true, format⟩ recipe path).1.tail
      ∧ (run files ⟨true, format⟩ recipe whole).2 = (run files ⟨true, format⟩ recipe path).2 := by
  rcases accepted_or_split (linesOf front) with haccepted | ⟨before, line, after, hlines, hbefore, hline⟩
  · rw [halted_iff format recipe hfront, rejectedFrom_of_accepted 1 haccepted] at h
    cases h
  · have hlines' : linesOf (front ++ back) = before ++ line :: (after ++ linesOf back) := by
      rw [linesOf_append back hends, hlines, List.append_assoc, List.cons_append]
    rw [run_of_halted recipe hfront hlines rfl hbefore hline,
      run_of_halted recipe hwhole hlines' rfl hbefore hline]
    exact ⟨rfl, rfl⟩

/-- **Past a first part that does not halt, the whole is halted by what halts the second part.** -/
theorem halted_append_iff {whole second : String} {format : ReportFormat} {recipe : Recipe}
    (other : Recipe) (hends : Lines.EndsLine '\n' front.toList)
    (hfront : files.read path = .ok (Utf8.encode front))
    (hback : files.read second = .ok (Utf8.encode back))
    (hwhole : files.read whole = .ok (Utf8.encode (front ++ back)))
    (h : ∀ n, (run files ⟨true, format⟩ recipe path).2.2 ≠ .ok (.halted n)) {k : Nat} :
    (run files ⟨true, format⟩ recipe whole).2.2 = .ok (.halted k) ↔
      ∃ m, k = front.toList.count '\n' + m
        ∧ (run files ⟨true, format⟩ other second).2.2 = .ok (.halted m) := by
  have hnone : rejectedFrom 1 ((linesOf front).map request) = [] := by
    refine List.head?_eq_none_iff.mp (Option.eq_none_iff_forall_ne_some.mpr fun n hn => ?_)
    exact h n ((halted_iff format recipe hfront).mpr hn)
  rw [halted_iff format recipe hwhole, rejectedFrom_linesOf_append back hends, hnone, List.nil_append,
    List.head?_map, Option.map_eq_some_iff]
  refine exists_congr fun m => ?_
  rw [halted_iff format other hback, and_comm, Nat.add_comm m, eq_comm]

/--
**A script that is cut where a line ends comes to the same in parts.** Going on after rejected lines,
the whole ends in the recipe that the second part ends in when it is run after the first; its turns and
its failed lines are those of the first part and then those of the second, the latter with the line
feeds of the first part added to their numbers. Halting, the whole ends as the first part does if that
is halted, and says the same after its header; otherwise it is halted where the second part is, so many
lines later, whatever recipe the second part starts from.
-/
theorem run_in_parts (files : Files) (format : ReportFormat) (recipe : Recipe)
    {front back first second whole : String} (hends : Lines.EndsLine '\n' front.toList)
    (hfront : files.read first = .ok (Utf8.encode front))
    (hback : files.read second = .ok (Utf8.encode back))
    (hwhole : files.read whole = .ok (Utf8.encode (front ++ back))) :
    let feeds := front.toList.count '\n'
    let going := run files ⟨false, format⟩
    let halting := run files ⟨true, format⟩
    ((going recipe whole).2.1 = (going (going recipe first).2.1 second).2.1
      ∧ ∃ turns turns' failed failed',
        Completes first format (going recipe first) turns failed
          ∧ Completes second format (going (going recipe first).2.1 second) turns' failed'
          ∧ Completes whole format (going recipe whole) (turns ++ turns'.map (Turn.later feeds))
            (failed ++ failed'.map (· + feeds)))
    ∧ (∀ n, (halting recipe first).2.2 = .ok (.halted n) →
      (halting recipe whole).1.tail = (halting recipe first).1.tail
        ∧ (halting recipe whole).2 = (halting recipe first).2)
    ∧ ((∀ n, (halting recipe first).2.2 ≠ .ok (.halted n)) → ∀ other k,
      (halting recipe whole).2.2 = .ok (.halted k) ↔
        ∃ m, k = feeds + m ∧ (halting other second).2.2 = .ok (.halted m)) := by
  intro feeds going halting
  have hhanded : (going recipe first).2.1 = executeAll recipe (linesOf front) :=
    recipe_of_read format recipe hfront
  rw [hhanded]
  refine ⟨⟨?_, ?_⟩, ?_, ?_⟩
  · rw [recipe_of_read format recipe hwhole, recipe_of_read format _ hback,
      executeAll_linesOf_append recipe back hends]
  · refine ⟨_, _, _, _, completes_of_read format recipe hfront, completes_of_read format _ hback, ?_⟩
    rw [← turns_linesOf_append recipe back hends,
      ← rejectedFrom_linesOf_append back hends]
    exact completes_of_read format recipe hwhole
  · exact fun n h => run_append_of_halted format recipe hends hfront hwhole h
  · exact fun h other k => halted_append_iff other hends hfront hback hwhole h

/-- A script of two parts, the second of which has a rejected line, and the same parts the other way
round. -/
theorem run_in_two_parts :
    let one := "mix flour and eggs\r\n\n"
    let two := "fry eggs\nbake for 5 minutes\n"
    let files : Files :=
      .ofTexts [("one", one), ("two", two), ("one two", one ++ two), ("two one", two ++ one)]
    let going := run files ⟨false, .text⟩
    let halting := run files ⟨true, .text⟩
    (Lines.EndsLine '\n' one.toList ∧ Lines.EndsLine '\n' two.toList)
      ∧ (halting Recipe.empty "two").2.2 = .ok (.halted 1)
      ∧ (∀ n, (halting Recipe.empty "one").2.2 ≠ .ok (.halted n))
      ∧ (going Recipe.empty "one two").2.1 = (going (going Recipe.empty "one").2.1 "two").2.1
      ∧ (halting Recipe.empty "one two").2.2 = .ok (.halted 3)
      ∧ (halting Recipe.empty "two one").2 = (halting Recipe.empty "two").2 := by
  intro one two files going halting
  have hone : files.read "one" = .ok (Utf8.encode one) := rfl
  have htwo : files.read "two" = .ok (Utf8.encode two) := rfl
  have hboth : files.read "one two" = .ok (Utf8.encode (one ++ two)) := rfl
  have hturned : files.read "two one" = .ok (Utf8.encode (two ++ one)) := rfl
  have hends : Lines.EndsLine '\n' one.toList ∧ Lines.EndsLine '\n' two.toList :=
    ⟨Or.inr (by decide), Or.inr (by decide)⟩
  have hhalted : (halting Recipe.empty "two").2.2 = .ok (.halted 1) := by
    have hfirst : (rejectedFrom 1 ((linesOf two).map request)).head? = some 1 := by decide +kernel
    exact (halted_iff .text Recipe.empty htwo).mpr hfirst
  have hnot : ∀ n, (halting Recipe.empty "one").2.2 ≠ .ok (.halted n) := by
    intro n hn
    have hnone : (rejectedFrom 1 ((linesOf one).map request)).head? = none := by decide +kernel
    rw [(halted_iff .text Recipe.empty hone).mp hn] at hnone
    cases hnone
  obtain ⟨⟨hrecipe, -⟩, -, hsecond⟩ := run_in_parts files .text Recipe.empty hends.1 hone htwo hboth
  obtain ⟨-, hfirst, -⟩ := run_in_parts files .text Recipe.empty hends.2 htwo hone hturned
  have hfeeds : one.toList.count '\n' = 2 := by decide
  refine ⟨hends, hhalted, hnot, hrecipe, ?_, (hfirst 1 hhalted).2⟩
  rw [hsecond hnot Recipe.empty 3, hfeeds]
  exact ⟨1, rfl, hhalted⟩

end Parts

end Script

end RecipeScript
