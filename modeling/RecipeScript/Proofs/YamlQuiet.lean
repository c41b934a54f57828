import RecipeScript.Proofs.Blanks
import RecipeScript.Proofs.YamlCursor

/-!
# Quiet texts

A line is quiet if it holds nothing but white space and a comment. YAML has its own idea of where lines end, so a text
is quiet if all of its lines are, where every line break of YAML ends one. It also has its own idea of white space: to
YAML a no-break space, or an ideographic one, is a letter like any other. So a quiet text need not be empty to YAML;
but what stands first on one of its lines can only be such a foreign blank.

To follow a reader through a quiet text it is enough to know that what is left after each of its line breaks starts a
quiet line (`Quiet`), and whether what is left at some place does so (`StartsQuiet`). Both are kept by every reader that
only goes over blank lines.
-/

namespace RecipeScript.Yaml

/-- Whether a character is white space within a line. -/
def isMargin (c : Char) : Bool :=
  isBlank c && !isBreak c

/-- Whether a character is white space, but not to YAML. -/
def isForeign (c : Char) : Bool :=
  isMargin c && !isSpace c

/-- White space apart, a comment or nothing more stands on the line. -/
def StartsQuiet (cs : List Char) : Prop :=
  ∀ c ∈ (cs.dropWhile isMargin).head?, c = '#' ∨ isBreak c = true

/-- Every line but the first one is quiet. -/
def Quiet (cs : List Char) : Prop :=
  ∀ (b : Char) (rest : List Char), b :: rest <:+ cs → isBreak b = true → StartsQuiet rest

/-! ## Beginnings of lines -/

theorem startsQuiet_nil : StartsQuiet [] := by
  intro c h
  exact absurd h (by simp)

theorem startsQuiet_cons_break {b : Char} (rest : List Char) (hb : isBreak b = true) : StartsQuiet (b :: rest) := by
  have hmargin : isMargin b = false := by
    unfold isMargin
    rw [hb]
    exact Bool.and_false _
  intro c h
  rw [List.dropWhile_cons_of_neg (by simp [hmargin])] at h
  cases h
  exact .inr hb

theorem startsQuiet_append_iff {pre cs : List Char} (h : ∀ c ∈ pre, isMargin c = true) :
    StartsQuiet (pre ++ cs) ↔ StartsQuiet cs := by
  unfold StartsQuiet
  rw [List.dropWhile_append_of_pos h]

/-- What stands first on a quiet line. -/
theorem StartsQuiet.cases_head {c : Char} {cs : List Char} (h : StartsQuiet (c :: cs)) :
    c = '#' ∨ isBreak c = true ∨ isSpace c = true ∨ isForeign c = true := by
  cases hmargin : isMargin c with
  | false =>
      have hhead := h c (by rw [List.dropWhile_cons_of_neg (by simp [hmargin])]; rfl)
      rcases hhead with hhash | hbreak
      · exact .inl hhash
      · exact .inr (.inl hbreak)
  | true =>
      unfold isForeign
      rw [hmargin]
      cases isSpace c with
      | false => exact .inr (.inr (.inr rfl))
      | true => exact .inr (.inr (.inl rfl))

theorem isBlank_of_isBreak {c : Char} (h : isBreak c = true) : isBlank c = true := by
  have hchar : c = Char.ofNat c.toNat := (Char.ofNat_toNat c).symm
  unfold isBreak at h
  simp only [Bool.or_eq_true, beq_iff_eq, or_assoc] at h
  rcases h with hn | hn | hn | hn | hn
  all_goals
    rw [hchar, hn]
    decide

/-- The only sign that may stand first on a quiet line is that of a comment. -/
theorem StartsQuiet.ne {c d : Char} {cs : List Char} (h : StartsQuiet (c :: cs)) (hd : isBlank d = false)
    (hhash : d ≠ '#') : c ≠ d := by
  rintro rfl
  have hmargin : isMargin c = false := by
    unfold isMargin
    rw [hd]
    rfl
  rcases h c (by rw [List.dropWhile_cons_of_neg (by simp [hmargin])]; rfl) with hc | hbreak
  · exact hhash hc
  · rw [isBlank_of_isBreak hbreak] at hd
    exact absurd hd (by decide)

theorem isMargin_of_isSpace {c : Char} (h : isSpace c = true) : isMargin c = true := by
  unfold isSpace at h
  rw [Bool.or_eq_true, beq_iff_eq, beq_iff_eq] at h
  rcases h with rfl | rfl
  · decide
  · decide

theorem mem_take_of_le_takeWhile {α : Type} {p : α → Bool} {xs : List α} {n : Nat}
    (hn : n ≤ (xs.takeWhile p).length) : ∀ x ∈ xs.take n, p x = true := by
  intro x hx
  have hfront : xs.take n <+: xs.takeWhile p :=
    List.prefix_of_prefix_length_le (List.take_prefix n xs) (List.takeWhile_prefix p)
      (Nat.le_trans (List.length_take_le n xs) hn)
  exact List.mem_takeWhile_imp (hfront.subset hx)

/-- Moving on over white space stays on the quiet line. -/
theorem StartsQuiet.advance {cur : Cursor} {p : Char → Bool} {n : Nat} (h : StartsQuiet cur.rest)
    (hp : ∀ c, p c = true → isMargin c = true) (hn : n ≤ (cur.rest.takeWhile p).length) :
    StartsQuiet (cur.advance n).rest := by
  have hmargin : ∀ c ∈ cur.rest.take n, isMargin c = true := fun c hc => hp c (mem_take_of_le_takeWhile hn c hc)
  rw [← List.take_append_drop n cur.rest, startsQuiet_append_iff hmargin] at h
  exact h

/-! ## Quiet texts -/

theorem Quiet.precedes {cur later : Cursor} (h : Quiet cur.rest) (hlater : cur.Precedes later) : Quiet later.rest :=
  fun b rest hrest hb => h b rest (hrest.trans hlater) hb

/-- After a line break there is a quiet line. -/
theorem Quiet.takeBreak? {cur later : Cursor} {c : Char} (h : Quiet cur.rest)
    (htake : cur.takeBreak? = some (c, later)) : StartsQuiet later.rest := by
  obtain ⟨b, hb, hrest | hrest⟩ := Cursor.exists_of_takeBreak? htake
  · exact h b later.rest ⟨[], hrest.symm⟩ hb
  · exact h b later.rest ⟨['\r'], hrest.symm⟩ hb

section Lines

variable {cs : List Char}

/-- Every line of a text, as YAML cuts it, is blank or a comment. -/
def HasQuietLines (cs : List Char) : Prop :=
  ∀ line ∈ splitOn isBreak cs, isBlankOrComment (String.ofList line) = true

theorem isBlankOrComment_ofList (line : List Char) :
    isBlankOrComment (String.ofList line) = (line.dropWhile isBlank).head?.all (· == '#') := by
  rw [isBlankOrComment_eq, toList_trim, head?_trimBlanks, String.toList_ofList]

theorem HasQuietLines.startsQuiet (h : HasQuietLines cs) : StartsQuiet cs := by
  induction cs with
  | nil => exact startsQuiet_nil
  | cons c cs ih =>
      cases hbreak : isBreak c with
      | true => exact startsQuiet_cons_break cs hbreak
      | false =>
          obtain ⟨line, lines, hlines⟩ := exists_splitOn_eq_cons isBreak cs
          unfold HasQuietLines at h ih
          rw [splitOn_cons_of_not hbreak hlines] at h
          rw [hlines] at ih
          have hline := h (c :: line) List.mem_cons_self
          rw [isBlankOrComment_ofList] at hline
          cases hblank : isBlank c with
          | true =>
              have hmargin : isMargin c = true := by simp [isMargin, hblank, hbreak]
              rw [List.dropWhile_cons_of_pos hblank, ← isBlankOrComment_ofList] at hline
              have hrest : StartsQuiet cs := by
                refine ih fun other hother => ?_
                rcases List.mem_cons.mp hother with rfl | hother
                · exact hline
                · exact h other (List.mem_cons_of_mem _ hother)
              have hcons : StartsQuiet ([c] ++ cs) ↔ StartsQuiet cs := startsQuiet_append_iff (by simp [hmargin])
              exact hcons.mpr hrest
          | false =>
              have hhash : c = '#' := by simpa [hblank] using hline
              intro d hd
              rw [List.dropWhile_cons_of_neg (by simp [isMargin, hblank])] at hd
              cases hd
              exact .inl hhash

theorem HasQuietLines.quiet (h : HasQuietLines cs) : Quiet cs := by
  intro b rest hrest hb
  obtain ⟨front, rfl⟩ := hrest
  refine HasQuietLines.startsQuiet fun line hline => h line ?_
  rw [splitOn_append_sep front rest hb]
  exact List.mem_append_right _ hline

end Lines

/-! ## Readers that end on a quiet line -/

variable {cur later : Cursor}

/-- A gap that goes over a line break ends on a quiet line. -/
theorem Gap.startsQuiet_take? {fuel margin : Nat} {gap gap' : Gap} (hquiet : Quiet cur.rest)
    (h : gap.take? fuel margin cur = some (gap', later)) (hgap : gap.isBroken = true → StartsQuiet cur.rest) :
    gap'.isBroken = true → StartsQuiet later.rest := by
  induction fuel generalizing gap cur with
  | zero =>
      cases h
      exact hgap
  | succ fuel ih =>
      unfold Gap.take? at h
      split at h
      case h_1 c next hbreak =>
        exact ih (hquiet.precedes (Cursor.precedes_takeBreak? hbreak)) h fun _ => hquiet.takeBreak? hbreak
      case h_2 =>
        split at h
        case h_1 =>
          cases h
          exact hgap
        case h_2 c cs hrest =>
          have hquiet' : Quiet (cur.advance 1).rest := hquiet.precedes (Cursor.precedes_advance cur 1)
          split at h
          case isTrue hspace =>
            have hstep : StartsQuiet cur.rest → StartsQuiet (cur.advance 1).rest := by
              intro hstart
              refine hstart.advance (p := isSpace) (fun c => isMargin_of_isSpace) ?_
              simp [hrest, hspace]
            split at h
            · exact ih hquiet' h (by simp [isBroken])
            · split at h
              · exact absurd h (by simp)
              · exact ih hquiet' h fun hbroken => hstep (hgap hbroken)
          case isFalse =>
            cases h
            exact hgap

/-- A plain scalar that ends after a line break ends on a quiet line. -/
theorem startsQuiet_takePlain? {fuel margin : Nat} {inFlow broken : Bool} {text text' : List Char} {gap : Gap}
    (hquiet : Quiet cur.rest) (h : takePlain? fuel inFlow margin text gap cur = some (text', broken, later))
    (hgap : gap.isBroken = true → StartsQuiet cur.rest) : broken = true → StartsQuiet later.rest := by
  induction fuel generalizing text gap cur with
  | zero =>
      cases h
      exact hgap
  | succ fuel ih =>
      rcases takePlain?_cases h with ⟨-, -, rfl, rfl⟩ | ⟨word, read, gap', -, hread, hword⟩
      · exact hgap
      · have hquiet' : Quiet (cur.advance word.length).rest := hquiet.precedes (Cursor.precedes_advance cur _)
        -- a word closes the gap before it, and without a word the place is the same
        have hgap' : gap'.isBroken = true → StartsQuiet (cur.advance word.length).rest := by
          rcases hread with ⟨rfl, -, rfl⟩ | ⟨-, -, rfl⟩
          · exact hgap
          · intro hbroken
            exact absurd hbroken (by simp [Gap.isBroken])
        rcases hword with ⟨-, rfl, rfl⟩ | ⟨gap'', next, htake, hnext⟩
        · exact hgap'
        · have hgap'' : gap''.isBroken = true → StartsQuiet next.rest := Gap.startsQuiet_take? hquiet' htake hgap'
          rcases hnext with ⟨-, rfl, rfl⟩ | hmore
          · exact hgap''
          · exact ih (hquiet'.precedes (Gap.precedes_take? htake)) hmore hgap''

theorem startsQuiet_takeBlankLines? {fuel indent deepest least found : Nat} {breaks breaks' : List Char}
    (hquiet : Quiet cur.rest) (hstart : StartsQuiet cur.rest)
    (h : takeBlankLines? fuel indent deepest least breaks cur = some (found, breaks', later)) :
    StartsQuiet later.rest := by
  induction fuel generalizing deepest breaks cur with
  | zero => exact absurd h (by simp [takeBlankLines?])
  | succ fuel ih =>
      unfold takeBlankLines? at h
      extract_lets spaces next deepest at h
      have hnext : StartsQuiet next.rest := by
        refine hstart.advance (p := (· == ' ')) (fun c hc => isMargin_of_isSpace ?_) ?_
        · simp [isSpace, hc]
        · split
          · exact Nat.le_refl _
          · exact Nat.min_le_left _ _
      have hquiet' : Quiet next.rest := hquiet.precedes (Cursor.precedes_advance cur _)
      split at h
      · exact absurd h (by simp)
      · split at h
        case h_1 c last hbreak =>
          exact ih (hquiet'.precedes (Cursor.precedes_takeBreak? hbreak)) (hquiet'.takeBreak? hbreak) h
        case h_2 =>
          have hlater : next = later := congrArg (fun found => found.2.2) (Option.some.inj h)
          rw [← hlater]
          exact hnext

theorem not_of_head?_skipWhile {p : Char → Bool} {c : Char} (h : c ∈ (cur.skipWhile p).rest.head?) :
    p c = false := by
  have hrest : (cur.skipWhile p).rest = cur.rest.dropWhile p := by
    have hsplit : cur.rest.takeWhile p ++ cur.rest.dropWhile p = cur.rest := List.takeWhile_append_dropWhile
    calc cur.rest.drop (cur.rest.takeWhile p).length
        = (cur.rest.takeWhile p ++ cur.rest.dropWhile p).drop (cur.rest.takeWhile p).length := by rw [hsplit]
      _ = cur.rest.dropWhile p := List.drop_left
  have hnot := List.head?_dropWhile_not p cur.rest
  rw [← hrest, Option.mem_def.mp h] at hnot
  simpa using hnot

/-- After the end of a line comes a quiet line, or the text ends. -/
theorem Quiet.skipBreak (hquiet : Quiet cur.rest) (hend : ∀ c ∈ cur.rest.head?, isBreak c = true) :
    StartsQuiet cur.skipBreak.rest := by
  unfold Cursor.skipBreak
  split
  case h_1 c next hbreak => exact hquiet.takeBreak? hbreak
  case h_2 =>
    cases hrest : cur.rest with
    | nil => exact startsQuiet_nil
    | cons c cs => exact startsQuiet_cons_break cs (hend c (by rw [hrest]; rfl))

theorem startsQuiet_takeBlockLines? {fuel indent : Nat} {literal : Bool} {block block' : Block}
    (hquiet : Quiet cur.rest) (hstart : StartsQuiet cur.rest)
    (h : takeBlockLines? fuel literal indent block cur = some (block', later)) : StartsQuiet later.rest := by
  induction fuel generalizing block cur with
  | zero =>
      cases h
      exact hstart
  | succ fuel ih =>
      rcases takeBlockLines?_cases h with rfl | ⟨found, blankLines, next, more, hblank, hmore⟩
      · exact hstart
      · have hline : cur.Precedes (cur.skipWhile (!isBreak ·)) := (Cursor.Precedes.refl cur).skipWhile _
        have hbreak : StartsQuiet (cur.skipWhile (!isBreak ·)).skipBreak.rest :=
          (hquiet.precedes hline).skipBreak fun c hc => by simpa using not_of_head?_skipWhile hc
        have hquiet' : Quiet (cur.skipWhile (!isBreak ·)).skipBreak.rest := hquiet.precedes hline.skipBreak
        exact ih (hquiet'.precedes (precedes_takeBlankLines? hblank))
          (startsQuiet_takeBlankLines? hquiet' hbreak hblank) hmore

theorem isSpace_of_isBreak {c : Char} (h : isBreak c = true) : isSpace c = false := by
  cases hspace : isSpace c with
  | false => rfl
  | true =>
      have hmargin : isMargin c = true := isMargin_of_isSpace hspace
      unfold isMargin at hmargin
      rw [h] at hmargin
      simp at hmargin

/-- What ends a word on the rest of a line, where spaces and a comment have been skipped, is a line break. -/
theorem isBreak_of_endsWord {c : Char} (hends : endsWord ((cur.skipWhile isSpace).skipComment).rest = true)
    (hc : c ∈ ((cur.skipWhile isSpace).skipComment).rest.head?) : isBreak c = true := by
  have hspace : isSpace c = false := by
    unfold Cursor.skipComment at hc
    split at hc
    · have hbreak : (!isBreak c) = false := not_of_head?_skipWhile hc
      exact isSpace_of_isBreak (by simpa using hbreak)
    · exact not_of_head?_skipWhile hc
  cases hrest : ((cur.skipWhile isSpace).skipComment).rest with
  | nil =>
      rw [hrest] at hc
      exact absurd hc (by simp)
  | cons d cs =>
      rw [hrest] at hc hends
      cases hc
      simpa [endsWord, hspace] using hends

/-- A block ends on a quiet line. -/
theorem startsQuiet_takeBlock? {literal : Bool} {parent : Nat} {text : List Char} (hquiet : Quiet cur.rest)
    (h : takeBlock? literal parent cur = some (text, later)) : StartsQuiet later.rest := by
  unfold takeBlock? at h
  simp only [Option.bind_eq_bind, Option.bind_eq_some_iff] at h
  obtain ⟨⟨chomping, increment, next⟩, hheader, h⟩ := h
  have hnext : cur.Precedes ((next.skipWhile isSpace).skipComment) :=
    ((precedes_takeBlockHeader? hheader).skipWhile isSpace).skipComment
  have hquiet' : Quiet ((next.skipWhile isSpace).skipComment).rest := hquiet.precedes hnext
  split at h
  case isTrue => exact absurd h (by simp)
  case isFalse hends =>
    simp only [Option.bind_eq_some_iff] at h
    obtain ⟨⟨indent, blankLines, first⟩, hblank, ⟨block, last⟩, hlines, h⟩ := h
    cases h
    have hbreak := hquiet'.skipBreak fun c hc => isBreak_of_endsWord (by simpa using hends) hc
    have hfirst := hquiet.precedes hnext.skipBreak
    exact startsQuiet_takeBlockLines? (hfirst.precedes (precedes_takeBlankLines? hblank))
      (startsQuiet_takeBlankLines? hfirst hbreak hblank) hlines

/-! ## Foreign blanks -/

theorem isSpace_of_isForeign {c : Char} (h : isForeign c = true) : isSpace c = false := by
  simpa using (Bool.and_eq_true_iff.mp h).2

theorem isBreak_of_isForeign {c : Char} (h : isForeign c = true) : isBreak c = false := by
  have hmargin := (Bool.and_eq_true_iff.mp h).1
  simpa using (Bool.and_eq_true_iff.mp hmargin).2

/-- A foreign blank is none of the signs of YAML. -/
theorem ne_of_isForeign {c d : Char} (h : isForeign c = true) (hd : isForeign d = false) : c ≠ d := by
  rintro rfl
  rw [h] at hd
  exact absurd hd (by decide)

theorem isFlowSign_of_isForeign {c : Char} (h : isForeign c = true) : isFlowSign c = false := by
  have hne : ∀ d, isForeign d = false → (c == d) = false := fun d hd => beq_false_of_ne (ne_of_isForeign h hd)
  unfold isFlowSign
  rw [hne ',' (by decide), hne '[' (by decide), hne ']' (by decide), hne '\x7b' (by decide), hne '\x7d' (by decide)]
  rfl

theorem isAtDocumentMark_of_isForeign {c : Char} {cs : List Char} (hrest : cur.rest = c :: cs)
    (h : isForeign c = true) : cur.isAtDocumentMark = false := by
  have hdash := Cursor.isAtMark_of_ne hrest (ne_of_isForeign h (by decide : isForeign '-' = false))
  have hdot := Cursor.isAtMark_of_ne hrest (ne_of_isForeign h (by decide : isForeign '.' = false))
  unfold Cursor.isAtDocumentMark
  rw [hdash, hdot]
  rfl

theorem prefix_takePlain? {fuel margin : Nat} {inFlow broken : Bool} {text text' : List Char} {gap : Gap}
    (h : takePlain? fuel inFlow margin text gap cur = some (text', broken, later)) : text <+: text' := by
  induction fuel generalizing text gap cur with
  | zero =>
      cases h
      exact List.prefix_rfl
  | succ fuel ih =>
      rcases takePlain?_cases h with ⟨-, rfl, -, -⟩ | ⟨word, read, gap', -, hread, hword⟩
      · exact List.prefix_rfl
      · have hfront : text <+: read := by
          rcases hread with ⟨-, rfl, -⟩ | ⟨-, rfl, -⟩
          · exact List.prefix_rfl
          · exact ⟨gap.text ++ word, (List.append_assoc _ _ _).symm⟩
        rcases hword with ⟨rfl, -, -⟩ | ⟨gap'', next, -, hnext⟩
        · exact hfront
        · rcases hnext with ⟨rfl, -, -⟩ | hmore
          · exact hfront
          · exact hfront.trans (ih hmore)

theorem exists_of_plainWord?_foreign {inFlow : Bool} {c : Char} {cs word : List Char} (hc : isForeign c = true)
    (h : plainWord? inFlow (c :: cs) = some word) : ∃ more, word = c :: more := by
  have hcolon : (c == ':') = false := beq_false_of_ne (ne_of_isForeign hc (by decide))
  unfold plainWord? at h
  rw [isSpace_of_isForeign hc, isBreak_of_isForeign hc, isFlowSign_of_isForeign hc, hcolon] at h
  simp only [Bool.or_self, Bool.false_eq_true, if_false, Bool.and_false, Bool.false_and, Option.map_eq_some_iff] at h
  obtain ⟨more, -, rfl⟩ := h
  exact ⟨more, rfl⟩

/-- A plain scalar may begin with a foreign blank, which is then part of its text. -/
theorem exists_of_takePlain?_foreign {fuel margin : Nat} {inFlow broken : Bool} {c : Char} {cs text : List Char}
    (hrest : cur.rest = c :: cs) (hc : isForeign c = true)
    (h : takePlain? (fuel + 1) inFlow margin [] (.spaces []) cur = some (text, broken, later)) :
    ∃ more, text = c :: more := by
  rcases takePlain?_cases h with ⟨hstop, -⟩ | ⟨word, read, gap', hplain, hread, hword⟩
  · have hhash : cur.isAt '#' = false := by
      unfold Cursor.isAt
      rw [hrest]
      exact beq_false_of_ne fun heq => ne_of_isForeign hc (by decide) (Option.some.inj heq)
    rw [isAtDocumentMark_of_isForeign hrest hc, hhash] at hstop
    exact absurd hstop (by decide)
  · rw [hrest] at hplain
    obtain ⟨more, rfl⟩ := exists_of_plainWord?_foreign hc hplain
    have hfront : c :: more <+: text := by
      obtain rfl : read = c :: more := by
        rcases hread with ⟨hnil, -⟩ | ⟨-, rfl, -⟩
        · exact absurd hnil (List.cons_ne_nil c more)
        · rfl
      rcases hword with ⟨rfl, -⟩ | ⟨gap'', next, -, hnext⟩
      · exact List.prefix_rfl
      · rcases hnext with ⟨rfl, -⟩ | hmore
        · exact List.prefix_rfl
        · exact prefix_takePlain? hmore
    obtain ⟨rest, rfl⟩ := hfront
    exact ⟨more ++ rest, rfl⟩

end RecipeScript.Yaml
