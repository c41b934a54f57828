import RecipeScript.Proofs.Spacing
import RecipeScript.Session

/-!
# The normal form of a line

A line that asks for something has a normal form: its blanks at both ends are gone and its letters are
small. The normal form is a line too, it is its own normal form, and whoever reads or executes it meets
the same instruction, or the same fault about the same words, as in the line itself.

Lowercasing twice is lowercasing once because it leaves no capital behind. The final sigma makes no
difference here: the context decides what becomes of a capital sigma only, and of those there are none
left. Trimming is not disturbed, since blanks stay where they are and nothing else becomes one
(`trim_lowercase`).
-/

namespace RecipeScript

/-! ## Lowercasing twice -/

theorem lowercaseChar_of_mem_smallOf {b : Bool} {c d : Char} {after : List Char} (hd : d ∈ smallOf b c after) :
    lowercaseChar d = [d] := by
  unfold smallOf at hd
  split at hd
  · rw [List.mem_singleton.mp hd]
    split
    · decide +kernel
    · decide +kernel
  · exact lowercaseChar_of_mem_lowercaseChar hd

theorem lowercaseChar_of_mem_lowercaseFrom {b : Bool} {cs : List Char} {d : Char}
    (hd : d ∈ lowercaseFrom b cs) : lowercaseChar d = [d] := by
  induction cs generalizing b with
  | nil => exact absurd hd List.not_mem_nil
  | cons c cs ih =>
      rw [lowercaseFrom_cons] at hd
      rcases List.mem_append.mp hd with hd | hd
      · exact lowercaseChar_of_mem_smallOf hd
      · exact ih hd

theorem smallOf_of_lowercaseChar {c : Char} (h : lowercaseChar c = [c]) (b : Bool) (after : List Char) :
    smallOf b c after = [c] := by
  unfold smallOf
  rw [if_neg, h]
  -- a capital sigma does not stay as it is
  rintro rfl
  exact absurd h (by decide +kernel)

/-- Characters that stay as they are make up a text that stays as it is, whatever surrounds it. -/
theorem lowercaseFrom_of_lowercaseChar {cs : List Char} (h : ∀ c ∈ cs, lowercaseChar c = [c]) (b : Bool) :
    lowercaseFrom b cs = cs := by
  induction cs generalizing b with
  | nil => rfl
  | cons c cs ih =>
      obtain ⟨hc, hcs⟩ := List.forall_mem_cons.mp h
      rw [lowercaseFrom_cons, smallOf_of_lowercaseChar hc, ih hcs, List.singleton_append]

/-- **Lowercasing once is enough.** -/
@[simp] theorem lowercase_lowercase (s : String) : lowercase (lowercase s) = lowercase s := by
  rw [← String.toList_inj, toList_lowercase, toList_lowercase]
  exact lowercaseFrom_of_lowercaseChar (fun _ => lowercaseChar_of_mem_lowercaseFrom) false

theorem map_lowercase_map_lowercase (ws : List String) :
    (ws.map lowercase).map lowercase = ws.map lowercase := by
  rw [List.map_map]
  exact List.map_congr_left fun word _ => lowercase_lowercase word

/-! ## Lowercasing and trimming -/

/-- Looking ahead stops at a blank. -/
theorem startsCased_append_blank {c : Char} (hc : isBlank c = true) (cs rest : List Char) :
    startsCased (cs ++ c :: rest) = startsCased cs := by
  unfold startsCased
  induction cs with
  | nil =>
      rw [List.nil_append, List.dropWhile_cons_of_neg (by simp [isCaseIgnorable_eq_false_of_isBlank hc])]
      exact isCased_eq_false_of_isBlank hc
  | cons d cs ih =>
      rw [List.cons_append]
      by_cases hd : isCaseIgnorable d = true
      · rw [List.dropWhile_cons_of_pos hd, List.dropWhile_cons_of_pos hd, ih]
      · rw [List.dropWhile_cons_of_neg hd, List.dropWhile_cons_of_neg hd]

/-- A blank at the end has no part in what becomes of the text in front of it. -/
theorem lowercaseFrom_append_blank {c : Char} (hc : isBlank c = true) (b : Bool) (cs : List Char) :
    lowercaseFrom b (cs ++ [c]) = lowercaseFrom b cs ++ [c] := by
  induction cs generalizing b with
  | nil => rw [List.nil_append, lowercaseFrom_cons, smallOf_of_isBlank hc]; rfl
  | cons d cs ih =>
      have hsmall : smallOf b d (cs ++ [c]) = smallOf b d cs := by
        unfold smallOf
        rw [startsCased_append_blank hc]
      rw [List.cons_append, lowercaseFrom_cons, lowercaseFrom_cons, hsmall, ih, List.append_assoc]

/-- The last character of a text in small letters is one that its last character became. -/
theorem exists_getLast_lowercaseFrom {c : Char} (hc : isBlank c = false) (b : Bool) (cs : List Char) :
    ∃ small d, lowercaseFrom b (cs ++ [c]) = small ++ [d] ∧ isBlank d = false := by
  induction cs generalizing b with
  | nil =>
      rw [List.nil_append, lowercaseFrom_cons, lowercaseFrom, List.append_nil]
      have hne := smallOf_ne_nil b c []
      refine ⟨(smallOf b c []).dropLast, (smallOf b c []).getLast hne, ?_, ?_⟩
      · rw [List.dropLast_append_getLast]
      · exact not_isBlank_of_mem_smallOf hc (List.getLast_mem hne)
  | cons e cs ih =>
      obtain ⟨small, d, hsmall, hd⟩ := ih (casedAfter b e)
      refine ⟨smallOf b e (cs ++ [c]) ++ small, d, ?_, hd⟩
      rw [List.cons_append, lowercaseFrom_cons, hsmall, List.append_assoc]

theorem dropWhile_lowercaseFrom (cs : List Char) :
    (lowercaseFrom false cs).dropWhile isBlank = lowercaseFrom false (cs.dropWhile isBlank) := by
  induction cs with
  | nil => rfl
  | cons c cs ih =>
      by_cases hc : isBlank c = true
      · rw [lowercaseFrom_cons, smallOf_of_isBlank hc, casedAfter_of_isBlank hc, List.singleton_append,
          List.dropWhile_cons_of_pos hc, List.dropWhile_cons_of_pos hc, ih]
      · rw [List.dropWhile_cons_of_neg hc, lowercaseFrom_cons]
        -- whatever the first character becomes begins with no blank
        obtain ⟨d, ds, hds⟩ := List.exists_cons_of_ne_nil (smallOf_ne_nil false c cs)
        have hd : isBlank d = false :=
          not_isBlank_of_mem_smallOf (Bool.eq_false_iff.mpr hc) (by rw [hds]; exact List.mem_cons_self)
        rw [hds, List.cons_append, List.dropWhile_cons_of_neg (by simp [hd])]

theorem rdropWhile_lowercaseFrom (b : Bool) (cs : List Char) :
    (lowercaseFrom b cs).rdropWhile isBlank = lowercaseFrom b (cs.rdropWhile isBlank) := by
  induction cs using List.reverseRecOn with
  | nil => rfl
  | append_singleton cs c ih =>
      by_cases hc : isBlank c = true
      · rw [lowercaseFrom_append_blank hc, List.rdropWhile_concat_pos _ _ _ hc,
          List.rdropWhile_concat_pos _ _ _ hc, ih]
      · obtain ⟨small, d, hsmall, hd⟩ := exists_getLast_lowercaseFrom (Bool.eq_false_iff.mpr hc) b cs
        rw [List.rdropWhile_concat_neg _ _ _ hc, hsmall,
          List.rdropWhile_concat_neg _ _ _ (by simp [hd])]

/-- **Lowercasing and trimming can be done in either order.** -/
theorem trim_lowercase (s : String) : trim (lowercase s) = lowercase (trim s) := by
  rw [← String.toList_inj, toList_trim, toList_lowercase, toList_lowercase, toList_trim, trimBlanks_eq,
    dropWhile_lowercaseFrom, rdropWhile_lowercaseFrom, trimBlanks_eq]

/-- Whether a line is blank or a comment does not change in small letters. -/
@[simp] theorem isBlankOrComment_lowercase (s : String) :
    isBlankOrComment (lowercase s) = isBlankOrComment s := by
  rw [isBlankOrComment_eq_head?_lowercase, isBlankOrComment_eq_head?_lowercase, words_lowercase,
    map_lowercase_map_lowercase]

/-! ## Normal forms -/

theorem normalize?_eq_some_iff {line normal : String} : normalize? line = some normal ↔
    isBlankOrComment line = false ∧ lowercase (trim line) = normal := by
  rw [normalize?_eq]
  cases isBlankOrComment line with
  | true => exact ⟨(nomatch ·), fun h => nomatch h.1⟩
  | false => simp

/-- Neither end of a trimmed text is a blank. -/
theorem not_isBlank_last_trimBlanks {cs ds : List Char} {c : Char} (h : trimBlanks cs = ds ++ [c]) :
    isBlank c = false := by
  rw [trimBlanks_eq] at h
  have hlast := List.rdropWhile_last_not isBlank (cs.dropWhile isBlank) (by rw [h]; simp)
  simpa [h] using hlast

theorem not_isBlank_of_trim_eq {s : String} (h : trim s = s) {c : Char}
    (hc : s.toList.head? = some c ∨ s.toList.getLast? = some c) : isBlank c = false := by
  rw [← h, toList_trim] at hc
  rcases hc with hc | hc
  · obtain ⟨ds, hds⟩ := List.head?_eq_some_iff.mp hc
    exact not_isBlank_head_trimBlanks hds
  · obtain ⟨ds, hds⟩ := List.getLast?_eq_some_iff.mp hc
    exact not_isBlank_last_trimBlanks hds

/-- Lines that are read alike are executed alike. -/
theorem Recipe.execute_congr {line other : String} (h : Instruction.ofLine line = Instruction.ofLine other)
    (recipe : Recipe) : recipe.execute line = recipe.execute other := by
  unfold execute
  rw [h]

/--
**A normal form is the canonical form of its lines.** It is its own normal form: it begins and ends with
no blank, is no comment and has nothing left to be put into small letters. It is read as the same
instruction, or refused with the same fault, as any line that it is the normal form of, and executing it
has the same outcome and leads to the same recipe.
-/
theorem normalize?_canonical {line normal : String} (h : normalize? line = some normal) :
    normalize? normal = some normal
      ∧ (∀ c, normal.toList.head? = some c ∨ normal.toList.getLast? = some c → isBlank c = false)
      ∧ isBlankOrComment normal = false
      ∧ Instruction.ofLine normal = Instruction.ofLine line
      ∧ ∀ recipe : Recipe, recipe.execute normal = recipe.execute line := by
  obtain ⟨hasks, rfl⟩ := normalize?_eq_some_iff.mp h
  have htrim : trim (lowercase (trim line)) = lowercase (trim line) := by rw [trim_lowercase, trim_trim]
  have hasks' : isBlankOrComment (lowercase (trim line)) = false := by
    rw [isBlankOrComment_lowercase, isBlankOrComment_trim, hasks]
  have hwords : (words (lowercase (trim line))).map lowercase = (words line).map lowercase := by
    rw [words_lowercase, words_trim, map_lowercase_map_lowercase]
  have hread : Instruction.ofLine (lowercase (trim line)) = Instruction.ofLine line :=
    Instruction.ofLine_congr hwords
  refine ⟨normalize?_eq_some_iff.mpr ⟨hasks', ?_⟩, fun c hc => not_isBlank_of_trim_eq htrim hc, hasks', hread,
    fun recipe => recipe.execute_congr hread⟩
  rw [htrim, lowercase_lowercase]

/-- A line with sigmas at the end of words and inside them, a dotted capital and a Kelvin sign. -/
theorem normalize?_canonical_of_greek_line :
    normalize? "\u3000BA\u212AE ΣΟΦΟΣ.\tΟΔΟ\u0301Σ \u0130Σ\u00A0" =
        some "bake σοφος.\tοδο\u0301ς i\u0307ς"
      ∧ normalize? "bake σοφος.\tοδο\u0301ς i\u0307ς" = some "bake σοφος.\tοδο\u0301ς i\u0307ς" := by
  have h : normalize? "\u3000BA\u212AE ΣΟΦΟΣ.\tΟΔΟ\u0301Σ \u0130Σ\u00A0" =
      some "bake σοφος.\tοδο\u0301ς i\u0307ς" := by decide +kernel
  exact ⟨h, (normalize?_canonical h).1⟩

end RecipeScript
