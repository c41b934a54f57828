import RecipeScript.Proofs.Conversation
import RecipeScript.Proofs.PhysicalLines

/-!
# Interrupted sessions

An interrupt arrives while a session waits for a line. What has been typed of that line is lost, so the
session is fed the lines that are finished and no others: the same lines as if its input ended after
the last line feed (`finished_cut_throughLastFeed`).

Of two sessions that are fed the same lines, one until an interrupt and one until the input ends, both
meet the same event unless they run out of lines (`Event.whenInterrupted`), and then they part with the
same words. So no induction over the lines is made here: the course of a session is known by its requests
and its event.
-/

namespace RecipeScript

namespace Lines

variable {α : Type} [DecidableEq α] {lf cr : α}

/-- A text up to and including its last line feed. -/
def throughLastFeed (lf : α) (text : List α) : List α :=
  text.rdropWhile (· ≠ lf)

theorem endsLine_throughLastFeed (text : List α) : EndsLine lf (throughLastFeed lf text) := by
  by_cases hnil : throughLastFeed lf text = []
  · exact Or.inl hnil
  · have hlast : (throughLastFeed lf text).getLast hnil = lf :=
      of_not_not fun hne => List.rdropWhile_last_not _ text hnil (decide_eq_true hne)
    exact Or.inr (by rw [List.getLast?_eq_some_getLast hnil, hlast])

/-- Behind its last line feed a text has no other. -/
theorem exists_unfinished (lf : α) (text : List α) :
    ∃ rest, text = throughLastFeed lf text ++ rest ∧ lf ∉ rest := by
  refine ⟨text.rtakeWhile (· ≠ lf), List.rdropWhile_append_rtakeWhile.symm, fun hmem => ?_⟩
  have h := List.mem_rtakeWhile_imp hmem
  exact absurd rfl (of_decide_eq_true h)

/-- **The finished lines of a text are all the lines up to its last line feed.** -/
theorem finished_cut_throughLastFeed (text : List α) :
    (cut lf cr text).finished = (cut lf cr (throughLastFeed lf text)).all := by
  obtain ⟨rest, htext, hrest⟩ := exists_unfinished lf text
  have hends : EndsLine lf (throughLastFeed lf text) := endsLine_throughLastFeed text
  rw [all_of_unfinished_eq_nil (unfinished_cut hends)]
  conv_lhs => rw [htext, cut_append rest hends, cut_of_not_mem hrest]
  exact List.append_nil _

theorem throughLastFeed_idem (text : List α) :
    throughLastFeed lf (throughLastFeed lf text) = throughLastFeed lf text :=
  List.rdropWhile_idempotent _ text

end Lines

namespace Console

section Interrupt

variable {options : ConsoleOptions} {exitWords : List String} {lines : List (List UInt8)}
  {broken : Option (Nat × String)}

/-- The event that an interrupt makes of the end of the input. -/
def Event.whenInterrupted : Event → Event
  | endOfInput => interrupt
  | event => event

theorem Event.Meets.whenInterrupted {event : Event} {k : Nat}
    (h : event.Meets exitWords ⟨lines, false, broken⟩ k) :
    event.whenInterrupted.Meets exitWords ⟨lines, true, broken⟩ k := by
  cases event with
  | endOfInput => exact ⟨h.1, h.2.1, rfl⟩
  | interrupt => cases h.2.2
  | brokenPrompt cause => exact h
  | badLine fault => exact h
  | exitWord => exact h

/-- An interrupted session that comes to the same as one whose input ends, but for the reason of its end. -/
structure IsInterrupted (stopped ended : ConsoleRun) : Prop where
  transcript : stopped.transcript = ended.transcript
  recipe : stopped.recipe = ended.recipe
  interrupted_iff : stopped.result = .ok .interrupted ↔ ended.result = .ok .endOfInput
  result : ended.result ≠ .ok .endOfInput → stopped.result = ended.result

theorem isInterrupted_course (options : ConsoleOptions) (recipe : Recipe) (requests : List Request)
    {event : Event} (h : event ≠ .interrupt) :
    IsInterrupted (course options recipe requests event.whenInterrupted)
      (course options recipe requests event) := by
  cases event with
  | interrupt => exact absurd rfl h
  | endOfInput =>
      -- the only event that is another one now, and its farewell is the same
      refine ⟨?_, rfl, ⟨fun _ => rfl, fun _ => rfl⟩, fun hresult => absurd rfl hresult⟩
      unfold course Event.parting Event.whenInterrupted Event.result farewell
      cases options.farewell <;> rfl
  | brokenPrompt cause => exact ⟨rfl, rfl, ⟨(nomatch ·), (nomatch ·)⟩, fun _ => rfl⟩
  | badLine fault => exact ⟨rfl, rfl, ⟨(nomatch ·), (nomatch ·)⟩, fun _ => rfl⟩
  | exitWord => exact ⟨rfl, rfl, ⟨(nomatch ·), (nomatch ·)⟩, fun _ => rfl⟩

theorem IsInterrupted.after {stopped ended : ConsoleRun} (h : IsInterrupted stopped ended)
    (entries : Transcript) : IsInterrupted (.after entries stopped) (.after entries ended) where
  transcript := congrArg (entries ++ ·) h.transcript
  recipe := h.recipe
  interrupted_iff := h.interrupted_iff
  result := h.result

/-- Of two sessions that are fed the same lines, one meets an interrupt where the other meets the end. -/
theorem isInterrupted_runFeed (options : ConsoleOptions) (recipe : Recipe) (lines : List (List UInt8))
    (broken : Option (Nat × String)) : IsInterrupted (runFeed options recipe ⟨lines, true, broken⟩)
      (runFeed options recipe ⟨lines, false, broken⟩) := by
  obtain ⟨event, hmeets, hended⟩ := runFeed_eq options recipe ⟨lines, false, broken⟩
  obtain ⟨other, hother, hstopped⟩ := runFeed_eq options recipe ⟨lines, true, broken⟩
  obtain rfl : other = event.whenInterrupted := meets_unique hother hmeets.whenInterrupted
  have hne : event ≠ .interrupt := by
    rintro rfl
    cases hmeets.2.2
  rw [hended, hstopped]
  exact isInterrupted_course options recipe _ hne

end Interrupt

/--
**An interrupt is the end of the input at the last finished line.** A session that is interrupted after
its bytes prints what a session prints whose input ends with the last line feed, prompts and farewell
included, and leaves the same recipe. It ends in the same way too, unless that session runs out of input:
then, and only then, it was interrupted. A line that was not finished makes no difference.
-/
theorem interrupted_as_ended (options : ConsoleOptions) (recipe : Recipe) (bytes : List UInt8)
    (broken : Option (Nat × String)) :
    let finished := Lines.throughLastFeed lineFeed bytes
    IsInterrupted (run options recipe ⟨bytes, true, broken⟩) (run options recipe ⟨finished, false, broken⟩)
      ∧ run options recipe ⟨bytes, true, broken⟩ = run options recipe ⟨finished, true, broken⟩ := by
  intro finished
  have hfeed : ConsoleInput.feed ⟨bytes, true, broken⟩ =
      ⟨(Lines.cut lineFeed carriageReturn finished).all, true, broken⟩ := by
    unfold ConsoleInput.feed
    dsimp only
    rw [if_pos rfl, Lines.finished_cut_throughLastFeed]
  have hsame : ConsoleInput.feed ⟨finished, true, broken⟩ = ConsoleInput.feed ⟨bytes, true, broken⟩ := by
    unfold ConsoleInput.feed
    dsimp only
    rw [if_pos rfl, if_pos rfl, Lines.finished_cut_throughLastFeed, Lines.finished_cut_throughLastFeed,
      Lines.throughLastFeed_idem]
  constructor
  · rw [run_eq, run_eq, hfeed]
    exact (isInterrupted_runFeed options recipe _ broken).after _
  · rw [run_eq, run_eq, hsame]

end Console

end RecipeScript
