import RecipeScript.Proofs.NormalForm
import RecipeScript.Proofs.ScriptTurns

/-!
# Lines that ask for nothing

Whether a line asks for anything is decided in three places: a script skips blank lines and comments before
it looks at them any further, a normal form is given to no such line, and reading one gives no instruction
and no fault. The first looks at the line as it was typed, the other two at its small letters. They agree
all the same, on every line and whatever blanks stand around it.

A script therefore never executes a line in vain. Each line that is not skipped becomes an exchange in which
something is said, and the outcome of a line that is passed over in silence is never met.
-/

namespace RecipeScript

open Console (Request)

/-! ## Blanks around a line -/

/-- A text with blanks in front of it and behind it, or with those at its ends taken away. -/
def SameButBlanks (other line : String) : Prop :=
  other = trim line ∨ ∃ front back : String, (∀ c ∈ front.toList, isBlank c = true) ∧
    (∀ c ∈ back.toList, isBlank c = true) ∧ other = front ++ line ++ back

theorem SameButBlanks.trim_eq {other line : String} (h : SameButBlanks other line) : trim other = trim line := by
  rcases h with rfl | ⟨front, back, hfront, hback, rfl⟩
  · exact trim_trim line
  · rw [← String.toList_inj, toList_trim, toList_trim, String.toList_append, String.toList_append,
      trimBlanks_surrounded hfront hback]

/-! ## The three tests -/

theorem normalize?_eq_none_iff {line : String} : normalize? line = none ↔ isBlankOrComment line = true := by
  rw [normalize?_eq]
  cases isBlankOrComment line with
  | true => exact ⟨fun _ => rfl, fun _ => rfl⟩
  | false => exact ⟨(nomatch ·), (nomatch ·)⟩

theorem isBlankOrComment_congr {line other : String} (h : trim other = trim line) :
    isBlankOrComment other = isBlankOrComment line := by
  rw [← isBlankOrComment_trim, h, isBlankOrComment_trim]

theorem normalize?_congr {line other : String} (h : trim other = trim line) :
    normalize? other = normalize? line := by
  rw [normalize?_eq, normalize?_eq, isBlankOrComment_congr h, h]

theorem Instruction.ofLine_eq_of_trim_eq {line other : String} (h : trim other = trim line) :
    ofLine other = ofLine line := by
  rw [← ofLine_trim, h, ofLine_trim]

/-! ## Nothing is executed in vain -/

theorem said_of_mem_exchanges {format : ReportFormat} {recipe : Recipe} {requests : List Request} {e : Exchange}
    (h : e ∈ exchanges format recipe requests) : e.said = (Console.respond format e.before e.request).1 := by
  induction requests generalizing recipe with
  | nil => cases h
  | cons request requests ih =>
      rcases List.mem_cons.mp h with rfl | h
      · rfl
      · exact ih h

/-- A line that asks for something is not passed over. -/
theorem Recipe.execute_ne_ignored {line : String} (h : isBlankOrComment line = false) (recipe : Recipe) :
    (recipe.execute line).1 ≠ .ignored := by
  intro hignored
  obtain ⟨answer, -, hanswer⟩ := Script.exists_answers recipe h
  rw [recipe.execute_congr (Instruction.ofLine_trim line), hignored] at hanswer
  cases hanswer

theorem exists_verdict_of_ne_ignored {outcome : Outcome} (h : outcome ≠ .ignored) :
    ∃ message, Console.verdict outcome = [message] := by
  cases outcome with
  | ignored => exact absurd rfl h
  | accepted step => exact ⟨_, rfl⟩
  | rejected fault => exact ⟨_, rfl⟩

namespace Script

/-- A script executes no line that it would have skipped. -/
theorem not_blank_of_mem_requests {options : ScriptOptions} {lines : List String} {line : String}
    (h : Request.statement line ∈ requests options lines) : isBlankOrComment line = false := by
  have hmem : Request.statement line ∈ lines.map request := by
    rcases requests_cases options lines with ⟨-, front, halting, back, rfl, -, -, hrequests⟩ | ⟨-, hrequests⟩
    · rw [hrequests] at h
      obtain ⟨typed, htyped, hline⟩ := List.mem_map.mp h
      refine List.mem_map.mpr ⟨typed, ?_, hline⟩
      rw [List.append_cons]
      exact List.mem_append_left back htyped
    · rw [← hrequests]
      exact h
  obtain ⟨typed, -, hline⟩ := List.mem_map.mp hmem
  unfold request at hline
  split at hline
  · cases hline
  · rename_i hblank
    rw [← Request.statement.inj hline, isBlankOrComment_trim]
    exact Bool.eq_false_iff.mpr hblank

/-- Exchanges, one for each line that a run looks at, in which no line is executed in vain. -/
structure AreAnswered (options : ScriptOptions) (lines : List String) (recipe : Recipe) (es : List Exchange)
    (last : Recipe) : Prop where
  map_request : es.map Exchange.request = requests options lines
  chained : Chained recipe es last
  answered : ∀ e ∈ es, ∀ line, e.request = .statement line → isBlankOrComment line = false
    ∧ (e.before.execute line).1 ≠ .ignored ∧ ∃ message, e.said = [message]

theorem answered_of_mem_exchanges {options : ScriptOptions} {recipe : Recipe} {lines : List String}
    {e : Exchange} {line : String} (h : e ∈ exchanges options.format recipe (requests options lines))
    (hline : e.request = .statement line) :
    isBlankOrComment line = false ∧ (e.before.execute line).1 ≠ .ignored ∧ ∃ message, e.said = [message] := by
  have hrequest := List.mem_map_of_mem (f := Exchange.request) h
  rw [map_request_exchanges, hline] at hrequest
  have hasks := not_blank_of_mem_requests hrequest
  have houtcome := e.before.execute_ne_ignored hasks
  refine ⟨hasks, houtcome, ?_⟩
  rw [said_of_mem_exchanges h, hline, Request.respond_statement]
  exact exists_verdict_of_ne_ignored houtcome

/-- **Whatever a script executes is answered.** -/
theorem areAnswered_exchanges (options : ScriptOptions) (lines : List String) (recipe : Recipe) :
    AreAnswered options lines recipe (exchanges options.format recipe (requests options lines))
      (follow recipe (requests options lines)) where
  map_request := map_request_exchanges _ _ _
  chained := chained_exchanges _ _ _
  answered := fun _ he _ hline => answered_of_mem_exchanges he hline

end Script

/--
**A line asks for nothing by all tests or by none.** It is blank or a comment exactly if it has no normal
form, and exactly if reading it gives neither an instruction nor a fault; and none of the three tests is
impressed by blanks around the line. So the run of a script of any text is a chain of exchanges, one for
every line that it looks at, in which no line that is not skipped is passed over in silence. Of a file that
holds no text nothing is executed.
-/
theorem asks_nothing_by_every_test :
    (∀ line : String, (isBlankOrComment line = true ↔ normalize? line = none)
      ∧ (isBlankOrComment line = true ↔ Instruction.ofLine line = .ok none)
      ∧ ∀ other, SameButBlanks other line → isBlankOrComment other = isBlankOrComment line
        ∧ normalize? other = normalize? line ∧ Instruction.ofLine other = Instruction.ofLine line)
    ∧ ∀ (files : Files) (options : ScriptOptions) (recipe : Recipe) (path : String),
      (∀ text, files.read path = .ok (Utf8.encode text) → ∃ es closing last result,
        Script.run files options recipe path =
            (Script.header path :: (Script.tellFrom 1 es ++ closing), last, .ok result)
          ∧ Script.AreAnswered options (linesOf text) recipe es last)
      ∧ ∀ bytes, files.read path = .ok bytes → (∀ text, bytes ≠ Utf8.encode text) →
        Script.run files options recipe path = ([], recipe, .error (.ofRead path .notText)) := by
  refine ⟨fun line => ?_, fun files options recipe path => ⟨fun text hread => ?_, fun bytes hread hbytes => ?_⟩⟩
  · refine ⟨normalize?_eq_none_iff.symm, Instruction.ofLine_eq_ok_none_iff.symm, fun other h => ?_⟩
    have htrim := h.trim_eq
    exact ⟨isBlankOrComment_congr htrim, normalize?_congr htrim, Instruction.ofLine_eq_of_trim_eq htrim⟩
  · rw [Script.run_of_text options recipe hread, Script.executeFrom_eq, Script.course]
    exact ⟨_, _, _, _, rfl, Script.areAnswered_exchanges options (linesOf text) recipe⟩
  · exact Script.run_of_error options recipe (readText_of_not_text hread hbytes)

/-- A comment among blanks of several kinds, and a script in which a line begins with a dotted capital. -/
theorem asks_nothing_by_every_test_of_comment :
    let text := "\u2003# \u0130\n\u0130 flour\n"
    let files : Files := .ofTexts [("cake.recipe", text)]
    SameButBlanks "\u2003# \u0130\u0085" "# \u0130"
      ∧ Instruction.ofLine "\u2003# \u0130\u0085" = Instruction.ofLine "# \u0130"
      ∧ files.read "cake.recipe" = .ok (Utf8.encode text)
      ∧ ∃ es closing last result,
        Script.run files ⟨false, .text⟩ Recipe.empty "cake.recipe" =
            (Script.header "cake.recipe" :: (Script.tellFrom 1 es ++ closing), last, .ok result)
          ∧ Script.AreAnswered ⟨false, .text⟩ (linesOf text) Recipe.empty es last := by
  have hsame : SameButBlanks "\u2003# \u0130\u0085" "# \u0130" :=
    Or.inr ⟨"\u2003", "\u0085", List.all_eq_true.mp (by decide +kernel), List.all_eq_true.mp (by decide +kernel),
      by decide +kernel⟩
  exact ⟨hsame, ((asks_nothing_by_every_test.1 _).2.2 _ hsame).2.2, rfl,
    (asks_nothing_by_every_test.2 _ _ _ _).1 _ rfl⟩

end RecipeScript
