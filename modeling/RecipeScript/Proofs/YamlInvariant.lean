import RecipeScript.Proofs.YamlNames

/-!
# The lexer in a quiet text

In a quiet text, outside of brackets and braces, a name can begin at two kinds of places only: on a quiet line, where it
begins with a foreign blank, and behind a sign on the same line, a dash, a question mark, a colon or a comma, where it
is deeper than the block around it and so begins a block of its own. `Sound` says so, together with what the lexer
holds.

This module shows that it lasts from one token to the next: over blanks, comments and line breaks, over the end of
remembered names, and over the ends of blocks.
-/

namespace RecipeScript.Yaml

namespace Lexer

open Token (Good flowDepth)

/-! ## The invariant -/

/-- The blocks around a block are less deep, and the outermost one is the text as a whole. -/
def Descends (indent : Int) : List Int → Prop
  | [] => indent = -1
  | outer :: more => outer < indent ∧ Descends outer more

/-- What the lexer holds, apart from the names that it remembers. -/
structure Core (lx : Lexer) : Prop where
  quiet : Quiet lx.cursor.rest
  good : Good lx.tokens
  depth_eq : flowDepth lx.tokens = lx.outerPending.length
  descends : Descends lx.indent lx.outerIndents

/-- What holds of the lexer in a quiet text, between two tokens. -/
structure Sound (lx : Lexer) : Prop extends Core lx where
  kept : Kept lx.indent lx.tokens (lx.pending :: lx.outerPending)
  /-- Before the first token there are quiet lines only. -/
  start : lx.tokens = [] → lx.indent = -1 ∧ StartsQuiet lx.cursor.rest
  /-- Outside of brackets and braces, a name may begin on a quiet line, or deeper than the block around it. -/
  lineStart : lx.outerPending = [] → lx.nameAllowed = true →
    StartsQuiet lx.cursor.rest ∨ lx.tokens ≠ [] ∧ lx.indent < (lx.cursor.column : Int)

variable {lx lx' : Lexer}

theorem inFlow_eq_false_iff : lx.inFlow = false ↔ lx.outerPending = [] := by
  unfold inFlow
  rw [Bool.not_eq_false', List.isEmpty_iff]

theorem Core.outerPending_of_nil (h : lx.Core) (hnil : lx.tokens = []) : lx.outerPending = [] := by
  have hdepth := h.depth_eq
  rw [hnil] at hdepth
  exact List.eq_nil_of_length_eq_zero hdepth.symm

/-- A text that has quiet lines is sound at its beginning. -/
theorem sound_start {cs : List Char} (hstart : StartsQuiet cs) (hquiet : Quiet cs) :
    Sound { cursor := { rest := cs } } where
  quiet := hquiet
  good := Token.good_nil
  depth_eq := rfl
  descends := rfl
  kept := kept_none
  start := fun _ => ⟨rfl, hstart⟩
  lineStart := fun _ _ => .inl hstart

/-- One more token. -/
theorem Core.emit {token : Token} {cursor : Cursor} {allowed : Bool} {pending : Option PendingName} (h : lx.Core)
    (hgood : Good (token :: lx.tokens)) (hdepth : ∀ n, token.depth n = n) (hcursor : lx.cursor.Precedes cursor)
    (hkept : Kept lx.indent (token :: lx.tokens) (pending :: lx.outerPending))
    (hline : lx.outerPending = [] → allowed = true → StartsQuiet cursor.rest ∨ lx.indent < (cursor.column : Int)) :
    Sound { lx with cursor := cursor, tokens := token :: lx.tokens, nameAllowed := allowed, pending := pending } where
  quiet := h.quiet.precedes hcursor
  good := hgood
  depth_eq := (hdepth _).trans h.depth_eq
  descends := h.descends
  kept := hkept
  start := fun hnil => absurd hnil (List.cons_ne_nil _ _)
  lineStart := fun houter hallowed => (hline houter hallowed).imp_right fun hlt => ⟨List.cons_ne_nil _ _, hlt⟩

/-- The lexer behind a token, where no name may begin. -/
structure Closed (lx : Lexer) : Prop extends Core lx where
  kept : Kept lx.indent lx.tokens (lx.pending :: lx.outerPending)
  ne_nil : lx.tokens ≠ []
  notAllowed : lx.nameAllowed = false

theorem Closed.sound (h : lx.Closed) : lx.Sound where
  toCore := h.toCore
  kept := h.kept
  start := fun hnil => absurd hnil h.ne_nil
  lineStart := fun _ hallowed => absurd (h.notAllowed.symm.trans hallowed) Bool.false_ne_true

/-- One more token, behind which no name may begin either. -/
theorem Closed.emit {token : Token} {cursor : Cursor} (h : lx.Closed) (hneutral : token.IsNeutral)
    (hcursor : lx.cursor.Precedes cursor) : Sound { lx with cursor := cursor, tokens := token :: lx.tokens } :=
  h.toCore.emit (h.good.cons h.ne_nil hneutral.1) hneutral.2 hcursor
    (h.kept.mono (Int.le_refl _) (List.suffix_cons _ _))
    fun _ hallowed => absurd (h.notAllowed.symm.trans hallowed) Bool.false_ne_true

/-! ## Between tokens -/

/-- Moving on along a line. -/
theorem Sound.moveOn {cursor : Cursor} (h : lx.Sound) (hcursor : lx.cursor.Precedes cursor)
    (hstart : StartsQuiet lx.cursor.rest → StartsQuiet cursor.rest) (hcolumn : lx.cursor.column ≤ cursor.column) :
    Sound { lx with cursor := cursor } where
  quiet := h.quiet.precedes hcursor
  good := h.good
  depth_eq := h.depth_eq
  descends := h.descends
  kept := h.kept
  start := fun hnil => (h.start hnil).imp_right hstart
  lineStart := fun houter hallowed => by
    rcases h.lineStart houter hallowed with hquiet | ⟨hne, hlt⟩
    · exact .inl (hstart hquiet)
    · exact .inr ⟨hne, Int.lt_of_lt_of_le hlt (Int.ofNat_le.mpr hcolumn)⟩

theorem isSpace_of_skips {c : Char} (h : lx.skips c = true) : isSpace c = true := by
  unfold skips at h
  unfold isSpace
  rcases Bool.or_eq_true_iff.mp h with hspace | htab
  · rw [hspace]
    rfl
  · rw [(Bool.and_eq_true_iff.mp htab).1, Bool.or_true]

/-- Blanks and a comment lead to the end of a quiet line, or to what stands first on it. -/
theorem startsQuiet_skipLine (h : StartsQuiet lx.cursor.rest) :
    StartsQuiet (lx.cursor.skipWhile lx.skips).skipComment.rest := by
  have hspaces : StartsQuiet (lx.cursor.skipWhile lx.skips).rest :=
    h.advance (fun c hc => isMargin_of_isSpace (isSpace_of_skips hc)) (Nat.le_refl _)
  unfold Cursor.skipComment
  split
  · have hbreak : ∀ c ∈ ((lx.cursor.skipWhile lx.skips).skipWhile (!isBreak ·)).rest.head?, (!isBreak c) = false :=
      fun c hc => not_of_head?_skipWhile hc
    cases hrest : ((lx.cursor.skipWhile lx.skips).skipWhile (!isBreak ·)).rest with
    | nil => exact startsQuiet_nil
    | cons c cs =>
        rw [hrest] at hbreak
        exact startsQuiet_cons_break cs (by simpa using hbreak c rfl)
  · exact hspaces

theorem column_skipLine (cur : Cursor) (p : Char → Bool) : cur.column ≤ (cur.skipWhile p).skipComment.column := by
  have hcolumn : ∀ (cur : Cursor) (p : Char → Bool), cur.column ≤ (cur.skipWhile p).column :=
    fun cur p => Nat.le_add_right _ _
  unfold Cursor.skipComment
  split
  · exact Nat.le_trans (hcolumn cur p) (hcolumn _ _)
  · exact hcolumn cur p

/-- A byte order mark does not stand first on a quiet line. -/
theorem head?_ne_of_startsQuiet {cs : List Char} (h : StartsQuiet cs) : cs.head? ≠ some '\uFEFF' := by
  cases cs with
  | nil => simp
  | cons c cs =>
      intro hmark
      obtain rfl : c = '\uFEFF' := Option.some.inj hmark
      rcases h.cases_head with hhead | hhead | hhead | hhead
      all_goals exact absurd hhead (by decide)

theorem Sound.skipToToken (h : lx.Sound) (fuel : Nat) : (lx.skipToToken fuel).Sound := by
  induction fuel generalizing lx with
  | zero => exact h
  | succ fuel ih =>
      unfold Lexer.skipToToken
      extract_lets first line
      have hfirst : first.Sound := by
        show (if _ then _ else _ : Lexer).Sound
        split
        case isTrue hmark =>
          have hmark' : lx.cursor.rest.head? = some '\uFEFF' := beq_iff_eq.mp (Bool.and_eq_true_iff.mp hmark).2
          refine h.moveOn (Cursor.precedes_advance _ 1) (fun hstart => ?_) (Nat.le_add_right _ _)
          exact absurd hmark' (head?_ne_of_startsQuiet hstart)
        case isFalse => exact h
      have hline : line.Sound :=
        hfirst.moveOn (((Cursor.Precedes.refl _).skipWhile _).skipComment) startsQuiet_skipLine (column_skipLine _ _)
      split
      case h_1 c next hbreak =>
        have hnext : StartsQuiet next.rest := hline.quiet.takeBreak? hbreak
        exact ih
          { quiet := hline.quiet.precedes (Cursor.precedes_takeBreak? hbreak)
            good := hline.good
            depth_eq := hline.depth_eq
            descends := hline.descends
            kept := hline.kept
            start := fun hnil => ⟨(hline.start hnil).1, hnext⟩
            lineStart := fun _ _ => .inl hnext }
      case h_2 => exact hline

theorem expireOne?_cases {cur : Cursor} {old new : Option PendingName} (h : expireOne? cur old = some new) :
    new = none ∨ new = old := by
  cases old with
  | none =>
      cases h
      exact .inl rfl
  | some name =>
      unfold expireOne? at h
      dsimp only at h
      split at h
      · split at h
        · exact absurd h (by simp)
        · cases h
          exact .inl rfl
      · cases h
        exact .inr rfl

theorem forall₂_of_mapM_expireOne? {cur : Cursor} {olds news : List (Option PendingName)}
    (h : olds.mapM (expireOne? cur) = some news) : List.Forall₂ (fun new old => new = none ∨ new = old) news olds := by
  induction olds generalizing news with
  | nil =>
      cases h
      exact .nil
  | cons old olds ih =>
      simp only [List.mapM_cons, Option.bind_eq_bind, Option.bind_eq_some_iff] at h
      obtain ⟨new, hnew, rest, hrest, h⟩ := h
      cases h
      exact .cons (expireOne?_cases hnew) (ih hrest)

theorem Sound.expire? (h : lx.Sound) (hexpire : lx.expire? = some lx') : lx'.Sound := by
  unfold Lexer.expire? at hexpire
  simp only [Option.bind_eq_bind, Option.bind_eq_some_iff] at hexpire
  obtain ⟨pending, hpending, outer, houter, hexpire⟩ := hexpire
  cases hexpire
  have hsome := forall₂_of_mapM_expireOne? houter
  have hlength : outer.length = lx.outerPending.length := hsome.length_eq
  exact
    { quiet := h.quiet
      good := h.good
      depth_eq := h.depth_eq.trans hlength.symm
      descends := h.descends
      kept := h.kept.of_forall₂ (.cons (expireOne?_cases hpending) hsome)
      start := h.start
      lineStart := fun hnil => h.lineStart (List.eq_nil_of_length_eq_zero (hlength.symm.trans (congrArg List.length hnil))) }

/-! ## The ends of blocks -/

theorem Descends.le {indent : Int} {outer : List Int} (h : Descends indent outer) : -1 ≤ indent := by
  induction outer generalizing indent with
  | nil => exact Int.le_of_eq h.symm
  | cons around outer ih => exact Int.le_of_lt (Int.lt_of_le_of_lt (ih h.2) h.1)

/-- What is left of the blocks when those deeper than a column have ended. -/
structure Ended (column indent indent' : Int) (outer' : List Int) (tokens tokens' : List Token) : Prop where
  descends : Descends indent' outer'
  le : indent' ≤ indent
  le_column : -1 ≤ column → indent' ≤ column
  suffix : tokens <:+ tokens'
  depth_eq : flowDepth tokens' = flowDepth tokens
  good : Good tokens → tokens ≠ [] → Good tokens'
  unchanged : indent = -1 → tokens' = tokens

theorem ended_endBlocks (column : Int) {indent : Int} {outer : List Int} (tokens : List Token)
    (h : Descends indent outer) :
    Ended column indent (endBlocks column indent outer tokens).1 (endBlocks column indent outer tokens).2.1 tokens
      (endBlocks column indent outer tokens).2.2 := by
  induction outer generalizing indent tokens with
  | nil =>
      have hindent : indent = -1 := h
      exact ⟨h, Int.le_refl _, fun hcolumn => hindent ▸ hcolumn, List.suffix_rfl, rfl, fun hgood _ => hgood,
        fun _ => rfl⟩
  | cons around outer ih =>
      unfold endBlocks
      split
      case isTrue =>
        have hends := ih (.blockEnd :: tokens) h.2
        exact
          { descends := hends.descends
            le := Int.le_trans hends.le (Int.le_of_lt h.1)
            le_column := hends.le_column
            suffix := (List.suffix_cons _ _).trans hends.suffix
            depth_eq := hends.depth_eq
            good := fun hgood hne => hends.good (hgood.cons hne (by simp)) (List.cons_ne_nil _ _)
            unchanged := fun hindent => absurd h.1 (by have := h.2.le; omega) }
      case isFalse hle =>
        exact ⟨h, Int.le_refl _, fun _ => Int.not_lt.mp hle, List.suffix_rfl, rfl, fun hgood _ => hgood, fun _ => rfl⟩

theorem Sound.closeBlocks (h : lx.Sound) (column : Int) : (lx.closeBlocks column).Sound := by
  unfold Lexer.closeBlocks
  split
  case isTrue => exact h
  case isFalse =>
    have hends := ended_endBlocks column lx.tokens h.descends
    have hnil : (endBlocks column lx.indent lx.outerIndents lx.tokens).2.2 = [] → lx.tokens = [] := fun hnil =>
      List.suffix_nil.mp (hnil ▸ hends.suffix)
    have hgood : Good (endBlocks column lx.indent lx.outerIndents lx.tokens).2.2 := by
      by_cases hempty : lx.tokens = []
      · rw [hends.unchanged (h.start hempty).1]
        exact h.good
      · exact hends.good h.good hempty
    exact
      { quiet := h.quiet
        good := hgood
        depth_eq := hends.depth_eq.trans h.depth_eq
        descends := hends.descends
        kept := h.kept.mono hends.le hends.suffix
        start := fun hempty => by
          have hstart := h.start (hnil hempty)
          exact ⟨Int.le_antisymm (hstart.1 ▸ hends.le) hends.descends.le, hstart.2⟩
        lineStart := fun houter hallowed => by
          rcases h.lineStart houter hallowed with hstart | ⟨hne, hlt⟩
          · exact .inl hstart
          · exact .inr ⟨fun hempty => hne (hnil hempty), Int.lt_of_le_of_lt hends.le hlt⟩ }

theorem Sound.closeBlocks_ne_nil (h : lx.Sound) (column : Int) (hne : lx.tokens ≠ []) :
    (lx.closeBlocks column).tokens ≠ [] := by
  unfold Lexer.closeBlocks
  split
  case isTrue => exact hne
  case isFalse =>
    intro hnil
    exact hne (List.suffix_nil.mp (hnil ▸ (ended_endBlocks column lx.tokens h.descends).suffix))

theorem closeBlocks_cursor (lx : Lexer) (column : Int) : (lx.closeBlocks column).cursor = lx.cursor := by
  unfold Lexer.closeBlocks
  split <;> rfl

theorem closeBlocks_outerPending (lx : Lexer) (column : Int) :
    (lx.closeBlocks column).outerPending = lx.outerPending := by
  unfold Lexer.closeBlocks
  split <;> rfl

theorem Sound.closeBlocks_le (h : lx.Sound) {column : Int} (hcolumn : -1 ≤ column) (houter : lx.outerPending = []) :
    (lx.closeBlocks column).indent ≤ column := by
  unfold Lexer.closeBlocks
  rw [inFlow_eq_false_iff.mpr houter]
  exact (ended_endBlocks column lx.tokens h.descends).le_column hcolumn

end Lexer

end RecipeScript.Yaml
