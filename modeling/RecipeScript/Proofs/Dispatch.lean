import RecipeScript.Proofs.Agreement
import RecipeScript.Proofs.Encoding
import RecipeScript.Proofs.Spacing

/-!
# Where a typed line goes

A line that is typed at a console and neither is blank nor ends the session goes one of two ways. If it is
one of the control words, the session answers it itself; otherwise it is executed, trimmed but not changed in
any other way. The control words are looked up in full Unicode small letters, and yet a line is taken for one
of them exactly if it is that word but for the case of ASCII letters, which is how exit words are compared.

A control word is one word, so a line of several words is always executed.
-/

namespace RecipeScript

namespace Console

/-! ## Control words -/

/-- The control words and what they ask for. -/
def controlRequests : List (String × Request) :=
  [("help", .help), ("recipe", .showRecipe), ("clear", .clear)]

theorem sameWord_trans {a b word : String} (ha : sameWord a word = true) (hb : sameWord b word = true) :
    sameWord a b = true := by
  unfold sameWord at ha hb ⊢
  rw [beq_iff_eq] at ha hb ⊢
  rw [ha, hb]

/-- No text is two control words at once. -/
theorem eq_of_mem_controlRequests {word : String} {entry other : String × Request}
    (h : entry ∈ controlRequests) (hother : other ∈ controlRequests) (hword : sameWord entry.1 word = true)
    (hword' : sameWord other.1 word = true) : entry = other := by
  have hapart : ∀ e ∈ controlRequests, ∀ f ∈ controlRequests, sameWord e.1 f.1 = true → e = f := by decide
  exact hapart entry h other hother (sameWord_trans hword hword')

theorem lowercase_eq_iff_of_mem {name : String} (h : name ∈ controlWords) (word : String) :
    lowercase word = name ↔ sameWord name word = true := by
  have hplain : ∀ name ∈ controlWords, IsPlainWord name ∧ 'k' ∉ name.toList := by decide
  exact lowercase_eq_iff_sameWord (hplain name h).1 (hplain name h).2 word

/-- A line that is a control word has no other word. -/
theorem length_words_of_control {name line : String} (h : name ∈ controlWords)
    (hline : sameWord name (trim line) = true) : (words line).length = 1 := by
  have hone : ∀ name ∈ controlWords, (words name).length = 1 := by decide +kernel
  have hwords := congrArg words ((lowercase_eq_iff_of_mem h (trim line)).mpr hline)
  rw [words_lowercase, words_trim] at hwords
  rw [← hone name h, ← hwords, List.length_map]

/-! ## Single words -/

/-- The one word of a line is the line, blanks apart. -/
theorem trim_eq_of_words_eq {line word : String} (h : words line = [word]) : trim line = word := by
  have hspaced := words_eq_iff_spaced.mp h
  rw [← String.toList_inj, toList_trim]
  generalize line.toList = cs at hspaced
  cases hspaced with
  | word hgap hword _ hrest =>
      cases hrest with
      | blanks hrest =>
          rw [← List.append_assoc, trimBlanks_surrounded hgap hrest, trimBlanks_of_forall hword.2]

/-! ## One line -/

section Line

variable {exitWords : List String} {line : String}

theorem not_any_of_not_isExit (hblank : trim line ≠ "") (hexit : ¬ IsExit exitWords line) :
    ¬ exitWords.any (sameWord · (trim line)) = true :=
  fun hany => hexit ⟨hblank, List.any_eq_true.mp hany⟩

/-- A line that is neither blank nor an exit word is a control word or a statement. -/
theorem control_or_statement (hblank : trim line ≠ "") (hexit : ¬ IsExit exitWords line) :
    (∃ entry ∈ controlRequests, sameWord entry.1 (trim line) = true
      ∧ Request.ofLine exitWords line = entry.2)
    ∨ (∀ name ∈ controlWords, sameWord name (trim line) = false)
      ∧ Request.ofLine exitWords line = .statement (trim line) := by
  rw [Request.ofLine_eq, if_neg hblank, if_neg (not_any_of_not_isExit hblank hexit)]
  by_cases hhelp : sameWord "help" (trim line) = true
  · rw [if_pos hhelp]
    exact Or.inl ⟨("help", .help), by decide, hhelp, rfl⟩
  by_cases hrecipe : sameWord "recipe" (trim line) = true
  · rw [if_neg hhelp, if_pos hrecipe]
    exact Or.inl ⟨("recipe", .showRecipe), by decide, hrecipe, rfl⟩
  by_cases hclear : sameWord "clear" (trim line) = true
  · rw [if_neg hhelp, if_neg hrecipe, if_pos hclear]
    exact Or.inl ⟨("clear", .clear), by decide, hclear, rfl⟩
  · rw [if_neg hhelp, if_neg hrecipe, if_neg hclear]
    rw [Bool.not_eq_true] at hhelp hrecipe hclear
    refine Or.inr ⟨?_, rfl⟩
    simp only [controlWords, List.forall_mem_cons, List.not_mem_nil, false_implies, implies_true, and_true]
    exact ⟨hhelp, hrecipe, hclear⟩

theorem mem_controlWords {entry : String × Request} (h : entry ∈ controlRequests) : entry.1 ∈ controlWords :=
  List.mem_map_of_mem (f := Prod.fst) h

theorem ne_statement_of_mem {entry : String × Request} (h : entry ∈ controlRequests) (text : String) :
    entry.2 ≠ .statement text := by
  simp only [controlRequests, List.mem_cons, List.not_mem_nil, or_false] at h
  rcases h with rfl | rfl | rfl
  · exact (nomatch ·)
  · exact (nomatch ·)
  · exact (nomatch ·)

theorem eq_of_request_eq {entry other : String × Request} (h : entry ∈ controlRequests)
    (hother : other ∈ controlRequests) (hrequest : entry.2 = other.2) : entry = other := by
  have hapart : ∀ e ∈ controlRequests, ∀ f ∈ controlRequests, e.2 = f.2 → e = f := by decide
  exact hapart entry h other hother hrequest

/-- **A line is taken for a control word exactly if it is that word.** -/
theorem ofLine_eq_control_iff (hblank : trim line ≠ "") (hexit : ¬ IsExit exitWords line)
    {entry : String × Request} (h : entry ∈ controlRequests) :
    Request.ofLine exitWords line = entry.2 ↔ sameWord entry.1 (trim line) = true := by
  rcases control_or_statement hblank hexit with ⟨other, hother, hsame, hrequest⟩ | ⟨hnone, hrequest⟩
  · rw [hrequest]
    constructor
    · intro heq
      rw [← eq_of_request_eq hother h heq]
      exact hsame
    · intro hentry
      rw [eq_of_mem_controlRequests hother h hsame hentry]
  · rw [hrequest, hnone entry.1 (mem_controlWords h)]
    exact ⟨fun heq => absurd heq.symm (ne_statement_of_mem h _), (nomatch ·)⟩

/-- **Any other line is executed as it is**, blanks apart. -/
theorem ofLine_eq_statement_iff (hblank : trim line ≠ "") (hexit : ¬ IsExit exitWords line) :
    Request.ofLine exitWords line = .statement (trim line) ↔
      ∀ name ∈ controlWords, sameWord name (trim line) = false := by
  rcases control_or_statement hblank hexit with ⟨entry, hentry, hsame, hrequest⟩ | ⟨hnone, hrequest⟩
  · rw [hrequest]
    constructor
    · exact fun heq => absurd heq (ne_statement_of_mem hentry _)
    · intro hnone
      rw [hnone entry.1 (mem_controlWords hentry)] at hsame
      cases hsame
  · exact ⟨fun _ => hnone, fun _ => hrequest⟩

theorem not_control_of_words (h : (words line).length ≠ 1) :
    ∀ name ∈ controlWords, sameWord name (trim line) = false :=
  fun _ hname => Bool.eq_false_iff.mpr fun hsame => h (length_words_of_control hname hsame)

end Line

theorem handle_of_ofLine {options : ConsoleOptions} {bytes : List UInt8} {line : String} {request : Request}
    (hline : Utf8.decode bytes = .ok line) (hexit : ¬ IsExit options.exitWords line)
    (hrequest : Request.ofLine options.exitWords line = request) (recipe : Recipe) :
    handle options recipe bytes =
      ((respond options.format recipe request).1, request.effect recipe, none) := by
  have hgoesOn : request ≠ .exit := by
    rw [← hrequest]
    exact fun h => hexit (Request.ofLine_eq_exit_iff.mp h)
  exact handle_of_request (request?_eq_some_iff.mpr ⟨line, hline, hrequest, hgoesOn⟩)

/-! ## Where lines go -/

/-- How a session goes on after a typed line, by what the line is: it answers a control word itself, which is
one word but for the case of ASCII letters, and it executes every other line, trimmed and otherwise as it was
typed. -/
structure IsDispatched (options : ConsoleOptions) (bytes : List UInt8) (line : String) : Prop where
  help_iff : Request.ofLine options.exitWords line = .help ↔ sameWord "help" (trim line) = true
  showRecipe_iff : Request.ofLine options.exitWords line = .showRecipe ↔ sameWord "recipe" (trim line) = true
  clear_iff : Request.ofLine options.exitWords line = .clear ↔ sameWord "clear" (trim line) = true
  statement_iff : Request.ofLine options.exitWords line = .statement (trim line) ↔
    ∀ name ∈ controlWords, sameWord name (trim line) = false
  of_several_words : 1 < (words line).length → Request.ofLine options.exitWords line = .statement (trim line)
  of_one_word : ∀ word, words line = [word] → trim line = word
  handle_help : sameWord "help" (trim line) = true → ∀ recipe,
    handle options recipe bytes = ([.out helpText], recipe, none)
  handle_showRecipe : sameWord "recipe" (trim line) = true → ∀ recipe,
    handle options recipe bytes = ([.out (recipe.render options.format)], recipe, none)
  handle_clear : sameWord "clear" (trim line) = true → ∀ recipe,
    handle options recipe bytes = ([.out clearedMessage], Recipe.empty, none)
  handle_statement : (∀ name ∈ controlWords, sameWord name (trim line) = false) → ∀ recipe,
    handle options recipe bytes =
      (verdict (recipe.execute (trim line)).1, (recipe.execute (trim line)).2, none)

/--
**Control words are told apart by the case of ASCII letters alone**, like exit words. On every text the
comparison in full Unicode small letters comes out the same for them. So a line that neither is blank nor
ends the session is answered by the session itself exactly if it is a control word but for the case of ASCII
letters, and only then is it kept from being executed; lines of several words and all other single words are
executed as they are, blanks at their ends apart.
-/
theorem control_words_by_ascii_case :
    (∀ name ∈ controlWords, ∀ word, lowercase word = name ↔ sameWord name word = true)
    ∧ ∀ (options : ConsoleOptions) (bytes : List UInt8) (line : String), Utf8.decode bytes = .ok line →
      trim line ≠ "" → ¬ IsExit options.exitWords line → IsDispatched options bytes line := by
  refine ⟨fun name h word => lowercase_eq_iff_of_mem h word, fun options bytes line hline hblank hexit => ?_⟩
  have hcontrol := fun entry (h : entry ∈ controlRequests) => ofLine_eq_control_iff hblank hexit h
  have hhelp := hcontrol ("help", .help) (by decide)
  have hrecipe := hcontrol ("recipe", .showRecipe) (by decide)
  have hclear := hcontrol ("clear", .clear) (by decide)
  have hstatement := ofLine_eq_statement_iff hblank hexit
  constructor
  case help_iff => exact hhelp
  case showRecipe_iff => exact hrecipe
  case clear_iff => exact hclear
  case statement_iff => exact hstatement
  case of_several_words => exact fun h => hstatement.mpr (not_control_of_words (by omega))
  case of_one_word => exact fun word h => trim_eq_of_words_eq h
  case handle_help => exact fun h => handle_of_ofLine hline hexit (hhelp.mpr h)
  case handle_showRecipe => exact fun h => handle_of_ofLine hline hexit (hrecipe.mpr h)
  case handle_clear => exact fun h => handle_of_ofLine hline hexit (hclear.mpr h)
  case handle_statement =>
    intro h recipe
    rw [handle_of_ofLine hline hexit (hstatement.mpr h), Request.respond_statement]
    rfl

-- the dotted capital keeps its dot in small letters, so this is no control word
example : Request.ofLine ["quit"] " REC\u0130PE" = .statement "REC\u0130PE" := by decide +kernel

/-- A control word in mixed case among blanks. -/
theorem control_words_of_mixed_case :
    let options : ConsoleOptions := ⟨[], "> ", ["quit", "exit"], none, .text⟩
    Utf8.decode (Utf8.encode "\u3000cLeaR\u2003") = .ok "\u3000cLeaR\u2003"
      ∧ trim "\u3000cLeaR\u2003" ≠ "" ∧ ¬ IsExit options.exitWords "\u3000cLeaR\u2003"
      ∧ ∀ recipe, handle options recipe (Utf8.encode "\u3000cLeaR\u2003") =
        ([.out clearedMessage], Recipe.empty, none) := by
  have hline := Utf8.decode_encode "\u3000cLeaR\u2003"
  have hblank : trim "\u3000cLeaR\u2003" ≠ "" := by decide +kernel
  have hexit : ¬ IsExit ["quit", "exit"] "\u3000cLeaR\u2003" := by
    rintro ⟨-, hany⟩
    exact absurd hany (by decide +kernel)
  exact ⟨hline, hblank, hexit, (control_words_by_ascii_case.2 ⟨[], "> ", ["quit", "exit"], none, .text⟩ _ _
    hline hblank hexit).handle_clear (by decide +kernel)⟩

end Console

end RecipeScript
