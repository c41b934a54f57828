import RecipeScript.Proofs.Conversation
import RecipeScript.Proofs.PhysicalLines

/-!
# Console sessions in parts

What is typed into a session can be cut in two wherever a line ends, as a script can. But a session has
two ways to end. If a line of the first part ends it, an exit word or a line that is no text, then the
second part is never looked at. Otherwise the first part only runs out of lines, and nothing but the
recipe is carried over: the second part goes on as a session of its own, without a banner.

`runFeed_append` is the step from one line to many: lines that all ask for something are exchanges in
front of whatever comes next. Every list of lines is of this kind up to its end or up to the first line
that ends the session (`requested_or_stopped`).
-/

namespace RecipeScript

namespace Console

/-- Lines that each ask for something, and what they ask for. -/
def AskFor (exitWords : List String) (lines : List (List UInt8)) (requests : List Request) : Prop :=
  List.Forall₂ (fun line request => request? exitWords line = some request) lines requests

section Lines

variable {options : ConsoleOptions} {exitWords : List String} {line : List UInt8}

/-- Every prompt can be printed if none is to fail. -/
theorem hasPrompt_of_none (lines : List (List UInt8)) (interrupted : Bool) (k : Nat) :
    Feed.HasPrompt ⟨lines, interrupted, none⟩ k :=
  fun _ h => nomatch h

/-- Either all lines ask for something, or there is a first line that ends the session. -/
theorem requested_or_stopped (exitWords : List String) (lines : List (List UInt8)) :
    (∃ requests, AskFor exitWords lines requests)
    ∨ ∃ front line back requests, lines = front ++ line :: back ∧ AskFor exitWords front requests
      ∧ request? exitWords line = none := by
  induction lines with
  | nil => exact Or.inl ⟨[], .nil⟩
  | cons line lines ih =>
      cases hrequest : request? exitWords line with
      | none => exact Or.inr ⟨[], line, lines, [], rfl, .nil, hrequest⟩
      | some request =>
          rcases ih with ⟨requests, hlines⟩ | ⟨front, stop, back, requests, rfl, hfront, hstop⟩
          · exact Or.inl ⟨request :: requests, .cons hrequest hlines⟩
          · exact Or.inr ⟨line :: front, stop, back, request :: requests, rfl, .cons hrequest hfront, hstop⟩

/-- **Lines that ask for something are exchanges in front of what comes next.** -/
theorem runFeed_append {front : List (List UInt8)} {requests : List Request}
    (h : AskFor options.exitWords front requests) (recipe : Recipe) (lines : List (List UInt8))
    (interrupted : Bool) : runFeed options recipe ⟨front ++ lines, interrupted, none⟩ =
      .after ((exchanges options.format recipe requests).flatMap (tell options))
        (runFeed options (follow recipe requests) ⟨lines, interrupted, none⟩) := by
  unfold AskFor at h
  -- on the lines and their requests side by side; the recipe changes from one to the next
  induction h generalizing recipe with
  | nil => rfl
  | @cons line request front requests hrequest _ ih =>
      have hrest : Feed.rest ⟨line :: (front ++ lines), interrupted, none⟩ = ⟨front ++ lines, interrupted, none⟩ :=
        rfl
      rw [List.cons_append, runFeed_cons (hasPrompt_of_none _ _ 0) rfl, handle_of_request hrequest]
      dsimp only
      rw [hrest, ih, exchanges, List.flatMap_cons, ConsoleRun.after, ConsoleRun.after, ConsoleRun.after,
        List.append_assoc]
      rfl

/-- A line that ends the session ends it in the same way whatever follows. -/
theorem exists_run_of_stopped (recipe : Recipe) (h : request? options.exitWords line = none) :
    ∃ run : ConsoleRun, (run.result = .ok .command ∨ ∃ fault, run.result = .error fault)
      ∧ ∀ lines interrupted, runFeed options recipe ⟨line :: lines, interrupted, none⟩ = run := by
  rcases request?_eq_none_iff.mp h with ⟨fault, hfault⟩ | ⟨text, htext, hexit⟩
  · refine ⟨⟨[.prompt options.prompt], recipe, .error (.inputOutput fault.message)⟩, Or.inr ⟨_, rfl⟩, ?_⟩
    intro lines interrupted
    rw [runFeed_cons (hasPrompt_of_none _ _ 0) rfl, handle_of_badLine hfault]
  · refine ⟨⟨.prompt options.prompt :: farewell options .command, recipe, .ok .command⟩, Or.inl rfl, ?_⟩
    intro lines interrupted
    rw [runFeed_cons (hasPrompt_of_none _ _ 0) rfl, handle_of_exit htext hexit]

end Lines

section Parts

variable {options : ConsoleOptions} {recipe : Recipe} {front : List UInt8}

/-- The lines of the first part are all finished, however the session ends after them. -/
theorem feed_append (back : List UInt8) (hends : Lines.EndsLine lineFeed front) (interrupted : Bool) :
    ConsoleInput.feed ⟨front ++ back, interrupted, none⟩ =
      ⟨(Lines.cut lineFeed carriageReturn front).finished ++ (ConsoleInput.feed ⟨back, interrupted, none⟩).lines,
        interrupted, none⟩ := by
  unfold ConsoleInput.feed
  cases interrupted with
  | true =>
      dsimp only
      rw [Lines.cut_append back hends]
      rfl
  | false =>
      dsimp only
      rw [if_neg Bool.false_ne_true, if_neg Bool.false_ne_true, Lines.all_cut_append back hends,
        Lines.all_of_unfinished_eq_nil (Lines.unfinished_cut hends)]

theorem feed_of_endsLine (hends : Lines.EndsLine lineFeed front) (interrupted : Bool) :
    ConsoleInput.feed ⟨front, interrupted, none⟩ =
      ⟨(Lines.cut lineFeed carriageReturn front).finished, interrupted, none⟩ := by
  have hfeed := feed_append [] hends interrupted
  have hnil : (ConsoleInput.feed ⟨[], interrupted, none⟩).lines = [] := by cases interrupted <;> rfl
  rw [List.append_nil, hnil, List.append_nil] at hfeed
  exact hfeed

/-- The banner is printed once, before the session. -/
theorem runFeed_banner (banner : List String) (recipe : Recipe) (feed : Feed) :
    runFeed { options with banner := banner } recipe feed = runFeed options recipe feed := by
  -- the exit words are the same, so the requests and the event are
  obtain ⟨event, hmeets, hrun⟩ := runFeed_eq options recipe feed
  obtain ⟨other, hother, hrun'⟩ := runFeed_eq { options with banner := banner } recipe feed
  obtain rfl : other = event := meets_unique hother hmeets
  rw [hrun, hrun']
  rfl

theorem farewell_last (options : ConsoleOptions) (feed : Feed) : farewell options feed.last =
    (options.farewell.map fun message => Entry.out ("\n\n" ++ message)).toList := by
  unfold Feed.last farewell
  cases options.farewell with
  | none => rfl
  | some message => cases feed.interrupted <;> rfl

/-- Whether a session was ended by one of its lines, and did not just run out of them. -/
def EndedByLine (run : ConsoleRun) : Prop :=
  run.result = .ok .command ∨ ∃ fault, run.result = .error fault

theorem not_endedByLine_of_last {run : ConsoleRun} (feed : Feed) (h : run.result = .ok feed.last) :
    ¬ EndedByLine run := by
  unfold EndedByLine
  rw [h]
  unfold Feed.last
  cases feed.interrupted <;> simp

/-- A session that runs out of lines says farewell after one more prompt. -/
theorem run_of_requested (hends : Lines.EndsLine lineFeed front) {requests : List Request}
    (h : AskFor options.exitWords (Lines.cut lineFeed carriageReturn front).finished requests)
    (recipe : Recipe) (interrupted : Bool) : run options recipe ⟨front, interrupted, none⟩ =
      ⟨options.banner.map .out ++ (exchanges options.format recipe requests).flatMap (tell options)
          ++ .prompt options.prompt :: (options.farewell.map fun message => Entry.out ("\n\n" ++ message)).toList,
        follow recipe requests, .ok (Feed.last ⟨[], interrupted, none⟩)⟩ := by
  have happend := runFeed_append h recipe [] interrupted
  rw [List.append_nil] at happend
  rw [run_eq, feed_of_endsLine hends, happend, runFeed_nil (hasPrompt_of_none _ _ 0) rfl, farewell_last,
    ConsoleRun.after, ConsoleRun.after, List.append_assoc]

/--
**A session that is cut where a line ends comes to the same in parts.** If a line of the first part ends
the session, the second part makes no difference. Otherwise the whole says what the first part says up
to its last prompt, and from there on it is the session of the second part, without a banner and from
the recipe that the first part leaves. It does not matter for this how either part ends after its lines.
-/
theorem session_in_parts (options : ConsoleOptions) (recipe : Recipe) {front : List UInt8}
    (back : List UInt8) (hends : Lines.EndsLine lineFeed front) (early late : Bool) :
    let whole := run options recipe ⟨front ++ back, late, none⟩
    let first := run options recipe ⟨front, early, none⟩
    let second := run { options with banner := [] } first.recipe ⟨back, late, none⟩
    (EndedByLine first → whole = first)
    ∧ (¬ EndedByLine first → ∃ said,
      first.transcript = said ++ .prompt options.prompt
          :: (options.farewell.map fun message => Entry.out ("\n\n" ++ message)).toList
        ∧ whole.transcript = said ++ second.transcript ∧ whole.recipe = second.recipe
        ∧ whole.result = second.result) := by
  intro whole first second
  have hwhole : whole = _ := run_eq options recipe ⟨front ++ back, late, none⟩
  rw [feed_append back hends] at hwhole
  -- the lines of the first part decide alone which of the two it is
  rcases requested_or_stopped options.exitWords (Lines.cut lineFeed carriageReturn front).finished with
    ⟨requests, hlines⟩ | ⟨handled, line, rest, requests, hlines, hhandled, hline⟩
  · have hfirst : first = _ := run_of_requested hends hlines recipe early
    have hrecipe : first.recipe = follow recipe requests := by rw [hfirst]
    have hsecond : second = _ := run_eq { options with banner := [] } first.recipe ⟨back, late, none⟩
    have hnot : ¬ EndedByLine first := not_endedByLine_of_last ⟨[], early, none⟩ (by rw [hfirst])
    rw [runFeed_append hlines] at hwhole
    rw [runFeed_banner, hrecipe] at hsecond
    refine ⟨fun h => absurd h hnot, fun _ => ⟨_, by rw [hfirst], ?_, ?_, ?_⟩⟩
    · rw [hwhole, hsecond, ConsoleRun.after, ConsoleRun.after, ConsoleRun.after, List.append_assoc]
      rfl
    · rw [hwhole, hsecond]
      rfl
    · rw [hwhole, hsecond]
      rfl
  · -- behind the same exchanges both sessions come to the line that ends them
    obtain ⟨stopped, hstopped, hrun⟩ := exists_run_of_stopped (follow recipe requests) hline
    have hfirst : first = _ := run_eq options recipe ⟨front, early, none⟩
    rw [feed_of_endsLine hends, hlines, runFeed_append hhandled, hrun] at hfirst
    rw [hlines, List.append_assoc, List.cons_append, runFeed_append hhandled, hrun] at hwhole
    have hended : EndedByLine first := by
      rw [hfirst]
      exact hstopped
    exact ⟨fun _ => hwhole.trans hfirst.symm, fun h => absurd hended h⟩

/-- A session of two parts, the second of which ends it, and the same parts the other way round. -/
theorem session_in_two_parts :
    let options : ConsoleOptions := ⟨["Hello"], "> ", ["quit", "exit"], some "Bye", .text⟩
    let one := Utf8.encode "mix flour and eggs\r\n"
    let two := Utf8.encode "recipe\n Quit\n" ++ [0xFF, 0x0A]
    let typed := fun bytes interrupted => run options Recipe.empty ⟨bytes, interrupted, none⟩
    (Lines.EndsLine lineFeed one ∧ Lines.EndsLine lineFeed two)
      ∧ EndedByLine (typed two true) ∧ ¬ EndedByLine (typed one false)
      ∧ typed (two ++ one) false = typed two true
      ∧ (typed (one ++ two) true).transcript = [.out "Hello", .prompt "> ",
          .out "✓ Step 1: Mix flour and eggs"] ++ (run { options with banner := [] }
            (typed one false).recipe ⟨two, true, none⟩).transcript := by
  intro options one two typed
  have hends : Lines.EndsLine lineFeed one ∧ Lines.EndsLine lineFeed two :=
    ⟨Or.inr (by decide +kernel), Or.inr (by decide +kernel)⟩
  have hended : EndedByLine (typed two true) := Or.inl (by rfl)
  have hresult : (typed one false).result = .ok (Feed.last ⟨[], false, none⟩) := by rfl
  have hnot : ¬ EndedByLine (typed one false) := not_endedByLine_of_last ⟨[], false, none⟩ hresult
  have hfirst : (typed one false).transcript = [.out "Hello", .prompt "> ",
      .out "✓ Step 1: Mix flour and eggs"] ++ [.prompt "> ", .out "\n\nBye"] := by decide +kernel
  obtain ⟨hsame, -⟩ := session_in_parts options Recipe.empty one hends.2 true false
  obtain ⟨-, hparts⟩ := session_in_parts options Recipe.empty two hends.1 false true
  obtain ⟨said, hsaid, hwhole, -⟩ := hparts hnot
  rw [hfirst] at hsaid
  refine ⟨hends, hended, hnot, hsame hended, ?_⟩
  rw [hwhole, List.append_cancel_right hsaid]

end Parts

end Console

end RecipeScript
