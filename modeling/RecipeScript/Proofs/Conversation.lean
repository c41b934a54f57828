import RecipeScript.Proofs.ConsoleRun

/-!
# What is said in a console session

The first event that a session meets settles everything: how many lines are handled, and how the
session ends. The lines before it are texts, none of them an exit word, and each of them is answered
in its turn.

`Answers` says line by line what an answer is: blank lines, the three control words, comments and
statements, in this order. `Converses` puts a prompt in front of each answer and strings them
together.
-/

namespace RecipeScript

/-- Whether an entry is a prompt. -/
def Entry.isPrompt : Entry → Bool
  | prompt _ => true
  | _ => false

namespace Console

/-! ## The lines before the first event -/

section Lines

variable {exitWords : List String} {feed : Feed}

theorem exists_texts (exitWords : List String) (lines : List (List UInt8)) : ∃ texts : List String,
    (lines.take (requestsOf exitWords lines).length).map Utf8.decode = texts.map .ok ∧
      requestsOf exitWords lines = texts.map (Request.ofLine exitWords) ∧
      ∀ text ∈ texts, ¬ IsExit exitWords text := by
  induction lines with
  | nil => exact ⟨[], rfl, rfl, by simp⟩
  | cons line lines ih =>
      rw [requestsOf]
      cases hrequest : request? exitWords line with
      | none => exact ⟨[], rfl, rfl, by simp⟩
      | some request =>
          obtain ⟨text, htext, rfl, hexit⟩ := request?_eq_some_iff.mp hrequest
          obtain ⟨texts, hlines, hrequests, htexts⟩ := ih
          refine ⟨text :: texts, ?_, ?_, ?_⟩
          · dsimp only
            rw [List.length_cons, List.take_succ_cons, List.map_cons, List.map_cons, htext, hlines]
          · dsimp only
            rw [List.map_cons, hrequests]
          · intro other hother
            rcases List.mem_cons.mp hother with rfl | hother
            · exact fun h => hexit (Request.ofLine_eq_exit_iff.mpr h)
            · exact htexts other hother

theorem prompted_prefix (feed : Feed) : feed.prompted <+: feed.lines := by
  unfold Feed.prompted
  split
  · exact List.take_prefix _ _
  · exact List.prefix_refl _

theorem length_requests_le (exitWords : List String) (feed : Feed) :
    (feed.requests exitWords).length ≤ feed.prompted.length := by
  obtain ⟨texts, hlines, hrequests, -⟩ := exists_texts exitWords feed.prompted
  have hlength := congrArg List.length hlines
  rw [List.length_map, List.length_map, List.length_take] at hlength
  have htexts : (requestsOf exitWords feed.prompted).length = texts.length := by
    rw [hrequests, List.length_map]
  unfold Feed.requests
  omega

theorem length_requests_le_of_brokenPrompt (exitWords : List String) {cause : String} {j : Nat}
    (h : feed.brokenPrompt = some (j + 1, cause)) : (feed.requests exitWords).length ≤ j := by
  refine le_trans (length_requests_le exitWords feed) ?_
  unfold Feed.prompted
  rw [h]
  exact List.length_take_le _ _

/-- The lines that a session handles are texts, and no exit words. -/
theorem exists_texts_feed (exitWords : List String) (feed : Feed) : ∃ texts : List String,
    (feed.lines.take (feed.requests exitWords).length).map Utf8.decode = texts.map .ok ∧
      feed.requests exitWords = texts.map (Request.ofLine exitWords) ∧
      ∀ text ∈ texts, ¬ IsExit exitWords text := by
  obtain ⟨texts, hlines, hrequests, htexts⟩ := exists_texts exitWords feed.prompted
  refine ⟨texts, ?_, hrequests, htexts⟩
  obtain ⟨others, hothers⟩ := prompted_prefix feed
  rw [← hothers, List.take_append_of_le_length (length_requests_le exitWords feed)]
  exact hlines

/-- Before it has handled its lines, a session meets nothing that would end it. -/
theorem not_meets_of_lt {j : Nat} (h : j < (feed.requests exitWords).length) (event : Event) :
    ¬ event.Meets exitWords feed j := by
  obtain ⟨texts, hlines, hrequests, htexts⟩ := exists_texts_feed exitWords feed
  have hlength : texts.length = (feed.requests exitWords).length := by rw [hrequests, List.length_map]
  -- the line is there, is a text and is no exit word, which leaves no event but the prompt
  have hget : feed.lines[j]?.map Utf8.decode = some (.ok texts[j]) := by
    have hget := congrArg (fun decoded => decoded[j]?) hlines
    rw [List.getElem?_map, List.getElem?_map, List.getElem?_take_of_lt h,
      List.getElem?_eq_getElem (hlength ▸ h : j < texts.length)] at hget
    exact hget
  cases event with
  | brokenPrompt cause =>
      intro hmeets
      have := length_requests_le_of_brokenPrompt exitWords hmeets
      omega
  | badLine fault =>
      rintro ⟨-, line, hline, hfault⟩
      rw [hline, Option.map_some, hfault] at hget
      cases hget
  | exitWord =>
      rintro ⟨-, line, text, hline, htext, hexit⟩
      rw [hline, Option.map_some, htext] at hget
      cases hget
      exact htexts _ (List.getElem_mem _) hexit
  | endOfInput =>
      rintro ⟨-, hend, -⟩
      rw [List.getElem?_eq_none (by omega)] at hget
      cases hget
  | interrupt =>
      rintro ⟨-, hend, -⟩
      rw [List.getElem?_eq_none (by omega)] at hget
      cases hget

theorem meets_unique {k : Nat} {event other : Event} (h : event.Meets exitWords feed k)
    (hother : other.Meets exitWords feed k) : event = other := by
  -- the prompt, the line and the number of lines tell any two kinds apart
  cases event <;> cases other <;> simp only [Event.Meets, Feed.HasPrompt] at h hother <;> grind

/-- The first event of a session is determined, and so is the number of lines before it. -/
theorem isFirst_unique {k l : Nat} {event other : Event} (h : event.IsFirst exitWords feed k)
    (hother : other.IsFirst exitWords feed l) : k = l ∧ event = other := by
  obtain hlt | rfl | hlt := Nat.lt_trichotomy k l
  · exact absurd h.1 (hother.2 k hlt event)
  · exact ⟨rfl, meets_unique h.1 hother.1⟩
  · exact absurd hother.1 (h.2 l hlt other)

/-- **A session handles the lines before its first event, and ends with that event.** -/
theorem exists_course (options : ConsoleOptions) (recipe : Recipe) (feed : Feed) :
    ∃ (k : Nat) (event : Event) (texts : List String), event.IsFirst options.exitWords feed k ∧
      texts.length = k ∧ (feed.lines.take k).map Utf8.decode = texts.map .ok ∧
      (∀ text ∈ texts, ¬ IsExit options.exitWords text) ∧
      runFeed options recipe feed =
        course options recipe (texts.map (Request.ofLine options.exitWords)) event := by
  obtain ⟨event, hmeets, hrun⟩ := runFeed_eq options recipe feed
  obtain ⟨texts, hlines, hrequests, htexts⟩ := exists_texts_feed options.exitWords feed
  refine ⟨_, event, texts, ⟨hmeets, fun j hj => not_meets_of_lt hj⟩, ?_, hlines, htexts, ?_⟩
  · rw [hrequests, List.length_map]
  · rw [hrun, hrequests]

end Lines

/-! ## Answers -/

/-- A statement is neither blank nor a comment, and, blanks apart, none of the words that a session
takes. -/
def IsStatement (text : String) : Prop :=
  isBlankOrComment text = false ∧ ∀ word ∈ controlWords, sameWord word (trim text) = false

/-- What is said in answer to a line that does not end the session, and the recipe after it. -/
inductive Answers (format : ReportFormat) (recipe : Recipe) (text : String) :
    Transcript → Recipe → Prop where
  | blank : trim text = "" → Answers format recipe text [] recipe
  | help : sameWord "help" (trim text) = true → Answers format recipe text [.out helpText] recipe
  | showRecipe : sameWord "recipe" (trim text) = true →
      Answers format recipe text [.out (recipe.render format)] recipe
  | clear : sameWord "clear" (trim text) = true →
      Answers format recipe text [.out clearedMessage] Recipe.empty
  | comment : (trim text).toList.head? = some '#' → Answers format recipe text [] recipe
  | accepted (i : Instruction) : IsStatement text → Instruction.ofLine text = .ok (some i) →
      Answers format recipe text [.out ("✓ " ++ (recipe.nextStep i).sentence)] (recipe.record i)
  | rejected (fault : CommandFault) : IsStatement text → Instruction.ofLine text = .error fault →
      Answers format recipe text [.err ("Error: " ++ fault.message)] recipe

/-- What is printed while lines are answered in turn, with a prompt in front of each answer. -/
inductive Converses (options : ConsoleOptions) :
    Recipe → List String → Transcript → Recipe → Prop where
  | done (recipe : Recipe) : Converses options recipe [] [] recipe
  | turn {recipe after last : Recipe} {text : String} {texts : List String} {said rest : Transcript} :
      Answers options.format recipe text said after → Converses options after texts rest last →
      Converses options recipe (text :: texts) (.prompt options.prompt :: said ++ rest) last

section Answers

variable {options : ConsoleOptions} {format : ReportFormat} {recipe : Recipe} {text : String}

theorem answers_statement (h : IsStatement text) :
    Answers format recipe text (respond format recipe (.statement (trim text))).1
      (Request.effect recipe (.statement (trim text))) := by
  rw [Request.respond_statement, Request.effect]
  cases hline : Instruction.ofLine text with
  | error fault =>
      rw [Recipe.execute_of_rejected (by rw [Instruction.ofLine_trim, hline])]
      exact .rejected fault h hline
  | ok asked =>
      cases asked with
      | none =>
          rw [Instruction.ofLine_eq_ok_none_iff, h.1] at hline
          cases hline
      | some i =>
          rw [Recipe.execute_of_accepted (by rw [Instruction.ofLine_trim, hline])]
          exact .accepted i h hline

/-- A comment is handled as a statement, and ignored as one. -/
theorem answers_comment (hblank : trim text ≠ "") (h : isBlankOrComment text = true) :
    Answers format recipe text (respond format recipe (.statement (trim text))).1
      (Request.effect recipe (.statement (trim text))) := by
  have hline : Instruction.ofLine (trim text) = .ok none := by
    rw [Instruction.ofLine_trim, Instruction.ofLine_eq_ok_none_iff, h]
  rw [Request.respond_statement, Request.effect, Recipe.execute_of_ignored hline]
  refine .comment ?_
  rw [isBlankOrComment_eq] at h
  cases htext : (trim text).toList with
  | nil => exact absurd (String.toList_eq_nil_iff.mp htext) hblank
  | cons c cs =>
      rw [htext, List.head?_cons, Option.all_some, beq_iff_eq] at h
      rw [List.head?_cons, h]

/-- **Every line that does not end a session is answered.** -/
theorem answers_respond (exitWords : List String) (h : ¬ IsExit exitWords text) :
    Answers format recipe text (respond format recipe (Request.ofLine exitWords text)).1
      ((Request.ofLine exitWords text).effect recipe) := by
  rw [Request.ofLine_eq]
  -- in the order in which a session tells lines apart
  by_cases hblank : trim text = ""
  · rw [if_pos hblank]
    exact .blank hblank
  rw [if_neg hblank, if_neg fun hexit => h ⟨hblank, List.any_eq_true.mp hexit⟩]
  by_cases hhelp : sameWord "help" (trim text) = true
  · rw [if_pos hhelp]
    exact .help hhelp
  rw [if_neg hhelp]
  by_cases hrecipe : sameWord "recipe" (trim text) = true
  · rw [if_pos hrecipe]
    exact .showRecipe hrecipe
  rw [if_neg hrecipe]
  by_cases hclear : sameWord "clear" (trim text) = true
  · rw [if_pos hclear]
    exact .clear hclear
  rw [if_neg hclear]
  by_cases hcomment : isBlankOrComment text = true
  · exact answers_comment hblank hcomment
  · refine answers_statement ⟨by simpa using hcomment, ?_⟩
    simp only [controlWords, List.forall_mem_cons, List.not_mem_nil, false_implies, implies_true,
      and_true]
    simp only [Bool.not_eq_true] at hhelp hrecipe hclear
    exact ⟨hhelp, hrecipe, hclear⟩

/-- **The exchanges of lines that do not end a session are a conversation.** -/
theorem converses_exchanges (recipe : Recipe) {texts : List String}
    (h : ∀ text ∈ texts, ¬ IsExit options.exitWords text) :
    Converses options recipe texts
      ((exchanges options.format recipe (texts.map (Request.ofLine options.exitWords))).flatMap
        (tell options))
      (follow recipe (texts.map (Request.ofLine options.exitWords))) := by
  induction texts generalizing recipe with
  | nil => exact .done recipe
  | cons text texts ih =>
      rw [List.map_cons, exchanges, List.flatMap_cons]
      exact .turn (answers_respond options.exitWords (h text List.mem_cons_self))
        (ih _ fun other hother => h other (List.mem_cons_of_mem text hother))

theorem Answers.countP_isPrompt {said : Transcript} {after : Recipe}
    (h : Answers format recipe text said after) : said.countP Entry.isPrompt = 0 := by
  cases h <;> rfl

theorem Converses.countP_isPrompt {texts : List String} {said : Transcript} {last : Recipe}
    (h : Converses options recipe texts said last) : said.countP Entry.isPrompt = texts.length := by
  induction h with
  | done recipe => rfl
  | turn hanswer _ ih =>
      rw [List.cons_append, List.countP_cons_of_pos rfl, List.countP_append, hanswer.countP_isPrompt, ih,
        List.length_cons, Nat.zero_add]

end Answers

/-! ## The ends -/

section Ends

variable (options : ConsoleOptions)

theorem countP_isPrompt_banner : (options.banner.map Entry.out).countP Entry.isPrompt = 0 := by
  rw [List.countP_map, List.countP_eq_zero]
  exact fun line _ => by simp [Entry.isPrompt]

theorem countP_isPrompt_parting (event : Event) : (event.parting options).countP Entry.isPrompt = 0 := by
  cases event <;> unfold Event.parting Event.result farewell <;> cases options.farewell <;> rfl

/-- Something is said at the end exactly if there is something to say and nothing went wrong. -/
theorem parting_ne_nil_iff (event : Event) : event.parting options ≠ [] ↔
    (∃ message, options.farewell = some message) ∧ ∃ reason, event.result = .ok reason := by
  cases event <;> unfold Event.parting Event.result farewell <;> cases options.farewell <;> simp

theorem lastPrompt_cases (event : Event) :
    ((∃ cause, event = .brokenPrompt cause) ∧ event.lastPrompt options = [])
    ∨ ((∀ cause, event ≠ .brokenPrompt cause) ∧ event.lastPrompt options = [.prompt options.prompt]) := by
  cases event with
  | brokenPrompt cause => exact Or.inl ⟨⟨cause, rfl⟩, rfl⟩
  | _ => exact Or.inr ⟨fun _ h => (by cases h), rfl⟩

end Ends

/-! ## The session -/

section Session

variable {options : ConsoleOptions} {recipe : Recipe}

/-- A session is a conversation over the lines before its first event, and then what the event
brings. -/
theorem exists_conversation (options : ConsoleOptions) (recipe : Recipe) (feed : Feed) :
    ∃ (k : Nat) (event : Event) (texts : List String) (said : Transcript) (last : Recipe),
      event.IsFirst options.exitWords feed k ∧ texts.length = k
        ∧ (feed.lines.take k).map Utf8.decode = texts.map .ok ∧ Converses options recipe texts said last
        ∧ runFeed options recipe feed =
          ⟨said ++ event.lastPrompt options ++ event.parting options, last, event.result⟩ := by
  obtain ⟨k, event, texts, hfirst, hlength, hlines, htexts, hrun⟩ := exists_course options recipe feed
  exact ⟨k, event, texts, _, _, hfirst, hlength, hlines, converses_exchanges recipe htexts, hrun⟩

/-- **Whatever comes after the first event makes no difference.** -/
theorem runFeed_congr {feed other : Feed} {k : Nat} {event : Event}
    (hfirst : event.IsFirst options.exitWords feed k) (hother : event.IsFirst options.exitWords other k)
    (hagree : other.lines.take k = feed.lines.take k) :
    runFeed options recipe other = runFeed options recipe feed := by
  obtain ⟨l, event', texts, hfirst', -, hlines, -, hrun⟩ := exists_course options recipe feed
  obtain ⟨l', event'', texts', hother', -, hlines', -, hrun'⟩ := exists_course options recipe other
  obtain ⟨rfl, rfl⟩ := isFirst_unique hfirst' hfirst
  obtain ⟨rfl, rfl⟩ := isFirst_unique hother' hother
  -- the same lines before the event are the same texts
  have htexts : texts' = texts := by
    rw [hagree, hlines] at hlines'
    exact (List.map_injective_iff.mpr (fun _ _ h => Except.ok.inj h) hlines').symm
  rw [hrun, hrun', htexts]

end Session

/--
**The course of a session.** There is a first event. The lines before it are answered in order, each
once; with a prompt in front of each, that is all that is printed between the banner and the last
prompt. The event decides how the session ends and what is said then. A session that agrees up to
the event is the same in everything.
-/
theorem run_course (options : ConsoleOptions) (recipe : Recipe) (input : ConsoleInput) :
    ∃ (k : Nat) (event : Event) (texts : List String) (said : Transcript),
      event.IsFirst options.exitWords input.feed k
        ∧ texts.length = k ∧ (input.feed.lines.take k).map Utf8.decode = texts.map .ok
        ∧ Converses options recipe texts said (run options recipe input).recipe
        ∧ (run options recipe input).transcript =
          options.banner.map .out ++ said ++ event.lastPrompt options ++ event.parting options
        ∧ (run options recipe input).result = event.result
        ∧ ((∀ cause, event ≠ .brokenPrompt cause) →
          (run options recipe input).transcript.countP Entry.isPrompt = k + 1)
        ∧ ((∃ cause, event = .brokenPrompt cause) →
          (run options recipe input).transcript.countP Entry.isPrompt = k)
        ∧ (event.parting options ≠ [] ↔
          (∃ message, options.farewell = some message)
            ∧ ∃ reason, (run options recipe input).result = .ok reason)
        ∧ ∀ other : ConsoleInput, event.IsFirst options.exitWords other.feed k →
          other.feed.lines.take k = input.feed.lines.take k →
          run options recipe other = run options recipe input := by
  obtain ⟨k, event, texts, said, last, hfirst, hlength, hlines, hsaid, hfeed⟩ :=
    exists_conversation options recipe input.feed
  have hrun : run options recipe input = .after (options.banner.map .out)
      ⟨said ++ event.lastPrompt options ++ event.parting options, last, event.result⟩ := by
    rw [run_eq, hfeed]
  have htranscript : (run options recipe input).transcript =
      options.banner.map .out ++ said ++ event.lastPrompt options ++ event.parting options := by
    rw [hrun, ConsoleRun.after, List.append_assoc, List.append_assoc, List.append_assoc]
  have hprompts : (run options recipe input).transcript.countP Entry.isPrompt =
      k + (event.lastPrompt options).countP Entry.isPrompt := by
    rw [htranscript, List.countP_append, List.countP_append, List.countP_append, countP_isPrompt_banner,
      countP_isPrompt_parting, hsaid.countP_isPrompt, hlength, Nat.zero_add, Nat.add_zero]
  have hresult : (run options recipe input).result = event.result := by rw [hrun]; rfl
  refine ⟨k, event, texts, said, hfirst, hlength, hlines, ?_, htranscript, hresult, ?_, ?_, ?_, ?_⟩
  · rw [hrun]
    exact hsaid
  · intro h
    rcases lastPrompt_cases options event with ⟨⟨cause, rfl⟩, -⟩ | ⟨-, hlast⟩
    · exact absurd rfl (h cause)
    · rw [hprompts, hlast]
      rfl
  · rintro ⟨cause, rfl⟩
    exact hprompts
  · rw [hresult]
    exact parting_ne_nil_iff options event
  · intro other hother hagree
    rw [run_eq, run_eq, runFeed_congr hfirst hother hagree]

end Console

end RecipeScript
