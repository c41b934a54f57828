import RecipeScript.Yaml.Token

/-!
# Readers move forward

Whatever a reader of YAML does, it leaves an end of the text it was given: characters are read in order, none is put
back and none is changed. This is what lets a property of the ends of a text be carried through all of the reading.
-/

namespace RecipeScript.Yaml

namespace Cursor

/-- What is left at the second place is an end of what is left at the first one. -/
def Precedes (cur later : Cursor) : Prop :=
  later.rest <:+ cur.rest

variable {cur later : Cursor}

@[refl]
theorem Precedes.refl (cur : Cursor) : cur.Precedes cur :=
  List.suffix_refl cur.rest

theorem Precedes.trans {last : Cursor} (h : cur.Precedes later) (h' : later.Precedes last) : cur.Precedes last :=
  List.IsSuffix.trans h' h

theorem precedes_advance (cur : Cursor) (count : Nat) : cur.Precedes (cur.advance count) :=
  List.drop_suffix count cur.rest

theorem Precedes.advance (h : cur.Precedes later) (count : Nat) : cur.Precedes (later.advance count) :=
  h.trans (precedes_advance later count)

theorem Precedes.skipWhile (h : cur.Precedes later) (p : Char → Bool) : cur.Precedes (later.skipWhile p) :=
  h.advance _

theorem Precedes.skipComment (h : cur.Precedes later) : cur.Precedes later.skipComment := by
  unfold Cursor.skipComment
  split
  · exact h.skipWhile _
  · exact h

/-- A line break that is read is one, or two, of the characters left. -/
theorem exists_of_takeBreak? {c : Char} (h : cur.takeBreak? = some (c, later)) :
    ∃ b, isBreak b = true ∧ (cur.rest = b :: later.rest ∨ cur.rest = '\r' :: b :: later.rest) := by
  unfold takeBreak? at h
  split at h
  case h_1 rest hrest =>
    cases h
    exact ⟨'\n', by decide, .inr hrest⟩
  case h_2 b rest _ hrest =>
    split at h
    case isTrue hb =>
      cases h
      exact ⟨b, hb, .inl hrest⟩
    case isFalse => exact absurd h (by simp)
  case h_3 => exact absurd h (by simp)

theorem precedes_takeBreak? {c : Char} (h : cur.takeBreak? = some (c, later)) : cur.Precedes later := by
  obtain ⟨b, -, hrest | hrest⟩ := exists_of_takeBreak? h
  · exact ⟨[b], hrest.symm⟩
  · exact ⟨['\r', b], hrest.symm⟩

theorem Precedes.skipBreak (h : cur.Precedes later) : cur.Precedes later.skipBreak := by
  unfold Cursor.skipBreak
  split
  case h_1 c last htake => exact h.trans (precedes_takeBreak? htake)
  case h_2 => exact h

theorem isAtMark_of_ne {c d : Char} {cs : List Char} (hrest : cur.rest = c :: cs) (hne : c ≠ d) :
    cur.isAtMark d = false := by
  have hmark : (cur.rest.take 3 == [d, d, d]) = false := by
    refine beq_false_of_ne fun heq => hne ?_
    rw [hrest] at heq
    exact (List.cons_eq_cons.mp heq).1
  unfold isAtMark
  rw [hmark, Bool.and_false, Bool.false_and]

end Cursor

open Cursor

variable {cur later : Cursor}

/-! ## Scalars -/

theorem Gap.precedes_take? {fuel margin : Nat} {gap gap' : Gap} (h : gap.take? fuel margin cur = some (gap', later)) :
    cur.Precedes later := by
  induction fuel generalizing gap cur with
  | zero =>
      cases h
      rfl
  | succ fuel ih =>
      unfold Gap.take? at h
      split at h
      case h_1 c next hbreak => exact (precedes_takeBreak? hbreak).trans (ih h)
      case h_2 =>
        split at h
        case h_1 =>
          cases h
          rfl
        case h_2 c cs hrest =>
          have hstep : cur.Precedes (cur.advance 1) := precedes_advance cur 1
          split at h
          case isTrue =>
            split at h
            · exact hstep.trans (ih h)
            · split at h
              · exact absurd h (by simp)
              · exact hstep.trans (ih h)
          case isFalse =>
            cases h
            rfl

/-- A plain scalar ends here, or a word of it is read, which may be empty; and then it ends there, or after the gap
that follows the word, or goes on after it. -/
theorem takePlain?_cases {fuel margin : Nat} {inFlow broken : Bool} {text text' : List Char} {gap : Gap}
    (h : takePlain? (fuel + 1) inFlow margin text gap cur = some (text', broken, later)) :
    ((cur.isAtDocumentMark || cur.isAt '#') = true ∧ text' = text ∧ broken = gap.isBroken ∧ later = cur) ∨
    ∃ word read gap', plainWord? inFlow cur.rest = some word
      ∧ (word = [] ∧ read = text ∧ gap' = gap ∨ word ≠ [] ∧ read = text ++ gap.text ++ word ∧ gap' = .spaces [])
      ∧ ((text' = read ∧ broken = gap'.isBroken ∧ later = cur.advance word.length) ∨
        ∃ gap'' next, gap'.take? (cur.advance word.length).rest.length margin (cur.advance word.length)
            = some (gap'', next)
          ∧ ((text' = read ∧ broken = gap''.isBroken ∧ later = next)
            ∨ takePlain? fuel inFlow margin read gap'' next = some (text', broken, later))) := by
  unfold takePlain? at h
  split at h
  case isTrue hstop =>
    cases h
    exact .inl ⟨hstop, rfl, rfl, rfl⟩
  case isFalse =>
    simp only [Option.bind_eq_bind, Option.bind_eq_some_iff] at h
    obtain ⟨word, hword, h⟩ := h
    generalize hpair : (if word.isEmpty = true then (text, gap) else (text ++ gap.text ++ word, Gap.spaces [])) = pair
      at h
    obtain ⟨read, gap'⟩ := pair
    refine .inr ⟨word, read, gap', hword, ?_, ?_⟩
    · cases word with
      | nil =>
          cases hpair
          exact .inl ⟨rfl, rfl, rfl⟩
      | cons c word =>
          cases hpair
          exact .inr ⟨List.cons_ne_nil c word, rfl, rfl⟩
    · split at h
      · cases h
        exact .inl ⟨rfl, rfl, rfl⟩
      · simp only [Option.bind_eq_some_iff] at h
        obtain ⟨⟨gap'', next⟩, hgap, h⟩ := h
        refine .inr ⟨gap'', next, hgap, ?_⟩
        split at h
        · cases h
          exact .inl ⟨rfl, rfl, rfl⟩
        · exact .inr h

theorem precedes_takePlain? {fuel margin : Nat} {inFlow broken : Bool} {text text' : List Char} {gap : Gap}
    (h : takePlain? fuel inFlow margin text gap cur = some (text', broken, later)) : cur.Precedes later := by
  induction fuel generalizing text gap cur with
  | zero =>
      cases h
      rfl
  | succ fuel ih =>
      rcases takePlain?_cases h with ⟨-, -, -, rfl⟩ | ⟨word, read, gap', -, -, hword⟩
      · rfl
      · have hstep : cur.Precedes (cur.advance word.length) := precedes_advance cur word.length
        rcases hword with ⟨-, -, rfl⟩ | ⟨gap'', next, hgap, hnext⟩
        · exact hstep
        · have hgap' := hstep.trans (Gap.precedes_take? hgap)
          rcases hnext with ⟨-, -, rfl⟩ | hmore
          · exact hgap'
          · exact hgap'.trans (ih hmore)

theorem precedes_takeQuotedWord? {fuel : Nat} {double escaped : Bool} {text text' : List Char}
    (h : takeQuotedWord? fuel double text cur = some (text', escaped, later)) : cur.Precedes later := by
  induction fuel generalizing text cur with
  | zero =>
      cases h
      rfl
  | succ fuel ih =>
      have hstep : ∀ count, cur.Precedes (cur.advance count) := precedes_advance cur
      unfold takeQuotedWord? at h
      split at h
      case h_1 =>
        cases h
        rfl
      case h_2 c cs hrest =>
        split at h
        · cases h
          rfl
        · split at h
          · split at h
            · cases h
              rfl
            · split at h
              · split at h
                · cases h
                  exact (hstep 1).skipBreak
                · simp only [Option.bind_eq_bind, Option.bind_eq_some_iff] at h
                  obtain ⟨⟨escaped, length⟩, -, h⟩ := h
                  exact (hstep _).trans (ih h)
              · exact (hstep 1).trans (ih h)
          · split at h
            · split at h
              · exact (hstep 2).trans (ih h)
              · cases h
                rfl
            · exact (hstep 1).trans (ih h)

theorem precedes_takeQuoted? {fuel : Nat} {double : Bool} {text text' : List Char}
    (h : takeQuoted? fuel double text cur = some (text', later)) : cur.Precedes later := by
  induction fuel generalizing text cur with
  | zero => exact absurd h (by simp [takeQuoted?])
  | succ fuel ih =>
      unfold takeQuoted? at h
      split at h
      · exact absurd h (by simp)
      · simp only [Option.bind_eq_bind, Option.bind_eq_some_iff] at h
        obtain ⟨⟨word, escaped, next⟩, hword, h⟩ := h
        have hnext : cur.Precedes next := precedes_takeQuotedWord? hword
        dsimp only at h
        generalize (if double = true then '"' else '\'') = quote at h
        split at h
        · cases h
          exact hnext.advance 1
        · simp only [Option.bind_eq_some_iff] at h
          obtain ⟨⟨gap, last⟩, hgap, h⟩ := h
          exact (hnext.trans (Gap.precedes_take? hgap)).trans (ih h)

/-! ## Blocks -/

theorem precedes_takeChomping? {chomping : Chomping} (h : takeChomping? cur = some (chomping, later)) :
    cur.Precedes later := by
  unfold takeChomping? at h
  split at h
  · cases h
    exact precedes_advance cur 1
  · split at h
    · cases h
      exact precedes_advance cur 1
    · exact absurd h (by simp)

theorem precedes_takeIncrement? {increment : Nat} (h : takeIncrement? cur = some (increment, later)) :
    cur.Precedes later := by
  unfold takeIncrement? at h
  split at h
  · cases h
    rfl
  · split at h
    · exact absurd h (by simp)
    · split at h
      · cases h
        exact precedes_advance cur 1
      · cases h
        rfl

theorem precedes_takeBlockHeader? {chomping : Chomping} {increment : Nat}
    (h : takeBlockHeader? cur = some (chomping, increment, later)) : cur.Precedes later := by
  unfold takeBlockHeader? at h
  split at h
  case h_1 sign next hsign =>
    simp only [Option.bind_eq_bind, Option.bind_eq_some_iff] at h
    obtain ⟨⟨digit, last⟩, hdigit, h⟩ := h
    cases h
    exact (precedes_takeChomping? hsign).trans (precedes_takeIncrement? hdigit)
  case h_2 =>
    simp only [Option.bind_eq_bind, Option.bind_eq_some_iff] at h
    obtain ⟨⟨digit, next⟩, hdigit, h⟩ := h
    have hnext : cur.Precedes next := precedes_takeIncrement? hdigit
    split at h
    · cases h
      rfl
    · split at h
      case h_1 sign last hsign =>
        cases h
        exact hnext.trans (precedes_takeChomping? hsign)
      case h_2 =>
        cases h
        exact hnext

theorem precedes_takeBlankLines? {fuel indent deepest least found : Nat} {breaks breaks' : List Char}
    (h : takeBlankLines? fuel indent deepest least breaks cur = some (found, breaks', later)) :
    cur.Precedes later := by
  induction fuel generalizing deepest breaks cur with
  | zero => exact absurd h (by simp [takeBlankLines?])
  | succ fuel ih =>
      unfold takeBlankLines? at h
      extract_lets spaces next deepest at h
      have hnext : cur.Precedes next := precedes_advance cur _
      split at h
      · exact absurd h (by simp)
      · split at h
        case h_1 c last hbreak => exact (hnext.trans (precedes_takeBreak? hbreak)).trans (ih h)
        case h_2 =>
          have hlater : next = later := congrArg (fun found => found.2.2) (Option.some.inj h)
          rw [← hlater]
          exact hnext

/-- A block ends here, or a line of it and the blank lines after that are read. -/
theorem takeBlockLines?_cases {fuel indent : Nat} {literal : Bool} {block block' : Block}
    (h : takeBlockLines? (fuel + 1) literal indent block cur = some (block', later)) :
    later = cur ∨ ∃ found blankLines next more,
      takeBlankLines? ((cur.skipWhile (!isBreak ·)).skipBreak.rest.length + 1) indent 0 0 []
          (cur.skipWhile (!isBreak ·)).skipBreak = some (found, blankLines, next)
        ∧ takeBlockLines? fuel literal indent more next = some (block', later) := by
  unfold takeBlockLines? at h
  split at h
  · cases h
    exact .inl rfl
  · refine .inr ?_
    unfold skipBreak Cursor.skipWhile
    cases hbreak : (cur.advance (cur.rest.takeWhile (!isBreak ·)).length).takeBreak? with
    | none =>
        simp only [hbreak, Option.bind_eq_bind, Option.bind_eq_some_iff] at h
        obtain ⟨⟨found, blankLines, next⟩, hblank, h⟩ := h
        exact ⟨found, blankLines, next, _, hblank, h⟩
    | some taken =>
        simp only [hbreak, Option.bind_eq_bind, Option.bind_eq_some_iff] at h
        obtain ⟨⟨found, blankLines, next⟩, hblank, h⟩ := h
        exact ⟨found, blankLines, next, _, hblank, h⟩

theorem precedes_takeBlockLines? {fuel indent : Nat} {literal : Bool} {block block' : Block}
    (h : takeBlockLines? fuel literal indent block cur = some (block', later)) : cur.Precedes later := by
  induction fuel generalizing block cur with
  | zero =>
      cases h
      rfl
  | succ fuel ih =>
      rcases takeBlockLines?_cases h with rfl | ⟨found, blankLines, next, more, hblank, hmore⟩
      · rfl
      · have hline : cur.Precedes (cur.skipWhile (!isBreak ·)).skipBreak :=
          ((Precedes.refl cur).skipWhile _).skipBreak
        exact (hline.trans (precedes_takeBlankLines? hblank)).trans (ih hmore)

theorem precedes_takeBlock? {literal : Bool} {parent : Nat} {text : List Char}
    (h : takeBlock? literal parent cur = some (text, later)) : cur.Precedes later := by
  unfold takeBlock? at h
  simp only [Option.bind_eq_bind, Option.bind_eq_some_iff] at h
  obtain ⟨⟨chomping, increment, next⟩, hheader, h⟩ := h
  have hnext : cur.Precedes next := precedes_takeBlockHeader? hheader
  split at h
  · exact absurd h (by simp)
  · simp only [Option.bind_eq_some_iff] at h
    obtain ⟨⟨indent, blankLines, first⟩, hblank, ⟨block, last⟩, hlines, h⟩ := h
    cases h
    have hfirst := ((hnext.skipWhile isSpace).skipComment.skipBreak).trans (precedes_takeBlankLines? hblank)
    exact hfirst.trans (precedes_takeBlockLines? hlines)

/-! ## Anchors and tags -/

theorem precedes_takeWord (cur : Cursor) : cur.Precedes (takeWord cur).2 :=
  precedes_advance cur _

theorem precedes_takeAnchor? {name : List Char} (h : takeAnchor? cur = some (name, later)) : cur.Precedes later := by
  unfold takeAnchor? at h
  dsimp only at h
  split at h
  · exact absurd h (by simp)
  · cases h
    exact precedes_takeWord cur

theorem precedes_takeVersionNumber? {n : Nat} (h : takeVersionNumber? cur = some (n, later)) :
    cur.Precedes later := by
  unfold takeVersionNumber? at h
  dsimp only at h
  split at h
  · exact absurd h (by simp)
  · cases h
    exact precedes_advance cur _

theorem precedes_takeTagChars? {fuel : Nat} {verbatim : Bool} {bytes : List UInt8}
    (h : takeTagChars? fuel verbatim cur = some (bytes, later)) : cur.Precedes later := by
  induction fuel generalizing bytes cur with
  | zero =>
      cases h
      rfl
  | succ fuel ih =>
      unfold takeTagChars? at h
      have hstep : ∀ count, cur.Precedes (cur.advance count) := precedes_advance cur
      split at h
      case h_1 =>
        cases h
        rfl
      case h_2 c cs hrest =>
        split at h
        · simp only [Option.bind_eq_bind, Option.bind_eq_some_iff] at h
          obtain ⟨⟨spelled, rest⟩, -, ⟨more, last⟩, hmore, h⟩ := h
          cases h
          exact (hstep _).trans (ih hmore)
        · split at h
          · simp only [Option.bind_eq_bind, Option.bind_eq_some_iff] at h
            obtain ⟨⟨more, last⟩, hmore, h⟩ := h
            cases h
            exact (hstep 1).trans (ih hmore)
          · cases h
            rfl

theorem precedes_takeHandle? {handle : List Char} {complete : Bool}
    (h : takeHandle? cur = some (handle, complete, later)) : cur.Precedes later := by
  unfold takeHandle? at h
  split at h
  · exact absurd h (by simp)
  · dsimp only at h
    have hword : cur.Precedes (takeWord (cur.advance 1)).2 := (precedes_advance cur 1).trans (precedes_takeWord _)
    split at h
    · cases h
      exact hword.advance 1
    · cases h
      exact hword

/-! ## Tags and directives -/

theorem takeVerbatimTag?_spec {token : Token} (h : takeVerbatimTag? cur = some (token, later)) :
    (∃ handle suffix, token = .tag handle suffix) ∧ cur.Precedes later := by
  unfold takeVerbatimTag? at h
  simp only [Option.bind_eq_bind, Option.bind_eq_some_iff] at h
  obtain ⟨⟨suffix, next⟩, hchars, h⟩ := h
  split at h
  · exact absurd h (by simp)
  · cases h
    exact ⟨⟨_, _, rfl⟩, (precedes_takeTagChars? hchars).advance 1⟩

theorem takeShortTag?_spec {token : Token} (h : takeShortTag? cur = some (token, later)) :
    (∃ handle suffix, token = .tag handle suffix) ∧ cur.Precedes later := by
  unfold takeShortTag? at h
  simp only [Option.bind_eq_bind, Option.bind_eq_some_iff] at h
  obtain ⟨⟨handle, complete, next⟩, hhandle, ⟨suffix, last⟩, hchars, h⟩ := h
  have hlast : cur.Precedes last := (precedes_takeHandle? hhandle).trans (precedes_takeTagChars? hchars)
  split at h
  · split at h
    · exact absurd h (by simp)
    · cases h
      exact ⟨⟨_, _, rfl⟩, hlast⟩
  · split at h
    · cases h
      exact ⟨⟨_, _, rfl⟩, hlast⟩
    · cases h
      exact ⟨⟨_, _, rfl⟩, hlast⟩

theorem takeTag?_spec {inFlow : Bool} {token : Token} (h : takeTag? inFlow cur = some (token, later)) :
    (∃ handle suffix, token = .tag handle suffix) ∧ cur.Precedes later := by
  unfold takeTag? at h
  -- what has to follow a tag is the same for both forms
  have hends : ∀ {found : Token} {next : Cursor},
      (if (inFlow && next.isAt ',' || endsWord next.rest) = true then pure (found, next) else none)
        = some (token, later) → found = token ∧ next = later := by
    intro found next hfound
    split at hfound
    · cases hfound
      exact ⟨rfl, rfl⟩
    · exact absurd hfound (by simp)
  split at h
  · simp only [Option.bind_eq_bind, Option.bind_eq_some_iff] at h
    obtain ⟨⟨found, next⟩, htag, h⟩ := h
    obtain ⟨rfl, rfl⟩ := hends h
    obtain ⟨hshape, hnext⟩ := takeVerbatimTag?_spec htag
    exact ⟨hshape, (precedes_advance cur 2).trans hnext⟩
  · simp only [Option.bind_eq_bind, Option.bind_eq_some_iff] at h
    obtain ⟨⟨found, next⟩, htag, h⟩ := h
    obtain ⟨rfl, rfl⟩ := hends h
    exact takeShortTag?_spec htag

/-- A directive is a version or an abbreviation. -/
def Token.IsDirective : Token → Prop
  | .version _ _ | .abbreviation _ _ => True
  | _ => False

theorem takeVersion?_spec {token : Token} (h : takeVersion? cur = some (token, later)) :
    token.IsDirective ∧ cur.Precedes later := by
  unfold takeVersion? at h
  simp only [Option.bind_eq_bind, Option.bind_eq_some_iff] at h
  obtain ⟨⟨major, next⟩, hmajor, h⟩ := h
  have hnext : cur.Precedes next := ((Precedes.refl cur).skipWhile isSpace).trans (precedes_takeVersionNumber? hmajor)
  split at h
  · exact absurd h (by simp)
  · simp only [Option.bind_eq_some_iff] at h
    obtain ⟨⟨minor, last⟩, hminor, h⟩ := h
    cases h
    exact ⟨trivial, (hnext.advance 1).trans (precedes_takeVersionNumber? hminor)⟩

theorem takeAbbreviation?_spec {token : Token} (h : takeAbbreviation? cur = some (token, later)) :
    token.IsDirective ∧ cur.Precedes later := by
  unfold takeAbbreviation? at h
  simp only [Option.bind_eq_bind, Option.bind_eq_some_iff] at h
  obtain ⟨⟨handle, complete, next⟩, hhandle, h⟩ := h
  have hnext : cur.Precedes next := ((Precedes.refl cur).skipWhile isSpace).trans (precedes_takeHandle? hhandle)
  split at h
  · exact absurd h (by simp)
  · split at h
    · exact absurd h (by simp)
    · simp only [Option.bind_eq_some_iff] at h
      obtain ⟨⟨beginning, last⟩, hchars, h⟩ := h
      split at h
      · exact absurd h (by simp)
      · cases h
        exact ⟨trivial, (hnext.skipWhile isSpace).trans (precedes_takeTagChars? hchars)⟩

theorem takeDirective?_spec {token : Token} (h : takeDirective? cur = some (token, later)) :
    token.IsDirective ∧ cur.Precedes later := by
  unfold takeDirective? at h
  dsimp only at h
  have hword : cur.Precedes (takeWord cur).2 := precedes_takeWord cur
  -- what has to follow a directive is the same for all of them
  have hends : ∀ {found : Token} {next : Cursor}, found.IsDirective ∧ (takeWord cur).2.Precedes next →
      (if (!endsWord (next.skipWhile isSpace).skipComment.rest) = true then none
        else some (found, (next.skipWhile isSpace).skipComment.skipBreak)) = some (token, later) →
      token.IsDirective ∧ cur.Precedes later := by
    intro found next hspec hfound
    split at hfound
    · exact absurd hfound (by simp)
    · cases hfound
      exact ⟨hspec.1, ((hword.trans hspec.2).skipWhile isSpace).skipComment.skipBreak⟩
  split at h
  · exact absurd h (by simp)
  · split at h
    · simp only [Option.bind_eq_bind, Option.bind_eq_some_iff] at h
      obtain ⟨⟨found, next⟩, hfound, h⟩ := h
      exact hends (takeVersion?_spec hfound) h
    · split at h
      · simp only [Option.bind_eq_bind, Option.bind_eq_some_iff] at h
        obtain ⟨⟨found, next⟩, hfound, h⟩ := h
        exact hends (takeAbbreviation?_spec hfound) h
      · exact absurd h (by simp)

end RecipeScript.Yaml
