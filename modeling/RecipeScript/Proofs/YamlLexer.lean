import RecipeScript.Proofs.YamlInvariant

/-!
# The tokens of a quiet text

Every token leaves the lexer sound. On a quiet line the first one can only be a plain scalar that begins with a foreign
blank (`plain?_of_startsQuiet`). All others come behind some token, and it is shown for each kind of them in turn that the
tokens stay good, that what is remembered stays fit for a mark, and that a name may begin next only where it is deeper
than its block, or on a quiet line.
-/

namespace RecipeScript.Yaml

namespace Lexer

open Token (Good flowDepth)

variable {lx lx' : Lexer}

/-! ## Tokens -/

/-- The lexer before a token that does not stand first on a quiet line. -/
structure Ready (lx : Lexer) : Prop extends Sound lx where
  notFirst : lx.tokens ≠ []
  inBlock : lx.outerPending = [] → lx.indent ≤ (lx.cursor.column : Int)
  deeper : lx.outerPending = [] → lx.nameAllowed = true → lx.indent < (lx.cursor.column : Int)

theorem eq_of_forget? (h : lx.forget? = some lx') : lx' = { lx with pending := none } := by
  unfold forget? at h
  split at h
  · exact absurd h (by simp)
  · exact (Option.some.inj h).symm

theorem cursor_of_remember? (h : lx.remember? = some lx') : lx'.cursor = lx.cursor := by
  unfold Lexer.remember? at h
  split at h
  · simp only [Option.bind_eq_bind, Option.bind_eq_some_iff] at h
    obtain ⟨forgotten, hforget, h⟩ := h
    obtain rfl := eq_of_forget? hforget
    cases h
    rfl
  · cases h
    rfl

/-- A name that is remembered is one that `token`, which comes next, may begin. -/
theorem Sound.remember? {token : Token} (h : lx.Sound) (hkey : token ≠ .key)
    (hbegins : lx.outerPending = [] → lx.nameAllowed = true → lx.indent < (lx.cursor.column : Int) ∨ token.IsForeign)
    (hfirst : lx.tokens = [] → lx.indent < (lx.cursor.column : Int) ∧ token.IsForeign)
    (hremember : lx.remember? = some lx') :
    ∃ pending, lx' = { lx with pending := pending }
      ∧ Kept lx.indent (token :: lx.tokens) (pending :: lx.outerPending) := by
  have hkept := h.kept.mono (Int.le_refl _) (List.suffix_cons token lx.tokens)
  unfold Lexer.remember? at hremember
  split at hremember
  case isTrue hallowed =>
    simp only [Option.bind_eq_bind, Option.bind_eq_some_iff] at hremember
    obtain ⟨forgotten, hforget, hremember⟩ := hremember
    obtain rfl := eq_of_forget? hforget
    cases hremember
    refine ⟨_, rfl, fun name hname => ?_, hkept.2⟩
    cases hname
    refine ⟨⟨token, lx.tokens, ?_⟩, fun other hother => h.kept.place_lt (List.mem_cons_of_mem _ hother)⟩
    exact
      { suffix := List.suffix_rfl
        place := rfl
        good := h.good
        notKey := hkey
        depth_eq := h.depth_eq
        begins := fun hzero => hbegins (List.eq_nil_of_length_eq_zero hzero) hallowed
        first := hfirst }
  case isFalse =>
    cases hremember
    exact ⟨lx.pending, rfl, hkept⟩

theorem Ready.remember? {token : Token} (h : lx.Ready) (hkey : token ≠ .key) (hremember : lx.remember? = some lx') :
    ∃ pending, lx' = { lx with pending := pending }
      ∧ Kept lx.indent (token :: lx.tokens) (pending :: lx.outerPending) :=
  h.toSound.remember? hkey (fun houter hallowed => .inl (h.deeper houter hallowed))
    (fun hnil => absurd hnil h.notFirst) hremember

/-- A token with a content. -/
theorem Ready.content? {take? : Cursor → Option (Token × Cursor)} (h : lx.Ready)
    (htake : ∀ token cursor, take? lx.cursor = some (token, cursor) → token.IsNeutral ∧ lx.cursor.Precedes cursor)
    (hcontent : lx.content? take? = some lx') : lx'.Sound := by
  unfold Lexer.content? at hcontent
  simp only [Option.bind_eq_bind, Option.bind_eq_some_iff] at hcontent
  obtain ⟨remembered, hremember, ⟨token, cursor⟩, htoken, hcontent⟩ := hcontent
  cases hcontent
  rw [cursor_of_remember? hremember] at htoken
  obtain ⟨hneutral, hprecedes⟩ := htake token cursor htoken
  obtain ⟨pending, rfl, hkept⟩ := h.remember? hneutral.1 hremember
  exact h.toCore.emit (h.good.cons h.notFirst hneutral.1) hneutral.2 hprecedes hkept
    fun _ hallowed => absurd hallowed Bool.false_ne_true

/-! ### Directives and markers -/

/-- All blocks have ended, and no name may begin. -/
theorem Ready.endDocument? (h : lx.Ready) (hend : lx.endDocument? = some lx') : lx'.Closed := by
  unfold Lexer.endDocument? at hend
  simp only [Option.bind_eq_bind, Option.bind_eq_some_iff] at hend
  obtain ⟨forgotten, hforget, hend⟩ := hend
  cases hend
  obtain rfl := eq_of_forget? hforget
  have hclosed := h.toSound.closeBlocks (-1)
  exact
    { quiet := hclosed.quiet
      good := hclosed.good
      depth_eq := hclosed.depth_eq
      descends := hclosed.descends
      kept := hclosed.kept.forget
      ne_nil := h.toSound.closeBlocks_ne_nil (-1) h.notFirst
      notAllowed := rfl }

theorem Ready.documentMark (h : lx.Ready) {token : Token} (hneutral : token.IsNeutral) {ended : Lexer}
    (hend : lx.endDocument? = some ended) : ((ended.emit token).advance 3).Sound :=
  (h.endDocument? hend).emit hneutral (Cursor.precedes_advance _ 3)

theorem Ready.directive (h : lx.Ready) {ended : Lexer} {found : Token × Cursor}
    (hend : lx.endDocument? = some ended) (hfound : takeDirective? (ended.cursor.advance 1) = some found) :
    (ended.accept found).Sound := by
  obtain ⟨token, cursor⟩ := found
  obtain ⟨hdirective, hcursor⟩ := takeDirective?_spec hfound
  exact (h.endDocument? hend).emit (Token.isNeutral_of_isDirective hdirective)
    ((Cursor.precedes_advance _ 1).trans hcursor)

/-! ### Brackets and braces -/

theorem Ready.openFlow? {token : Token} (h : lx.Ready) (hkey : token ≠ .key) (hdepth : ∀ n, token.depth n = n + 1)
    (hopen : lx.openFlow? token = some lx') : lx'.Sound := by
  unfold Lexer.openFlow? at hopen
  simp only [Option.bind_eq_bind, Option.bind_eq_some_iff] at hopen
  obtain ⟨remembered, hremember, hopen⟩ := hopen
  cases hopen
  obtain ⟨pending, rfl, hkept⟩ := h.remember? hkey hremember
  exact
    { quiet := h.quiet.precedes (Cursor.precedes_advance _ 1)
      good := h.good.cons h.notFirst hkey
      depth_eq := (hdepth _).trans (congrArg (· + 1) h.depth_eq)
      descends := h.descends
      kept := hkept.push
      start := fun hnil => absurd hnil (List.cons_ne_nil _ _)
      lineStart := fun houter => absurd houter (List.cons_ne_nil _ _) }

theorem Ready.closeFlow? {token : Token} (h : lx.Ready) (hkey : token ≠ .key) (hdepth : ∀ n, token.depth n = n - 1)
    (hclose : lx.closeFlow? token = some lx') : lx'.Sound := by
  unfold Lexer.closeFlow? at hclose
  simp only [Option.bind_eq_bind, Option.bind_eq_some_iff] at hclose
  obtain ⟨forgotten, hforget, hclose⟩ := hclose
  obtain rfl := eq_of_forget? hforget
  have hkept := h.kept.mono (Int.le_refl _) (List.suffix_cons token lx.tokens)
  have hpopped : flowDepth (token :: lx.tokens) = lx.outerPending.length - 1 :=
    (hdepth _).trans (congrArg (· - 1) h.depth_eq)
  -- whatever is remembered on the level that is left, and on those outside of it
  have hclosed : ∀ pending outer, flowDepth (token :: lx.tokens) = List.length outer →
      Kept lx.indent (token :: lx.tokens) (pending :: outer) →
      Closed { lx with
        cursor := lx.cursor.advance 1, tokens := token :: lx.tokens, nameAllowed := false, pending := pending
        outerPending := outer } := fun pending outer hlength hkept =>
    { quiet := h.quiet.precedes (Cursor.precedes_advance lx.cursor 1)
      good := h.good.cons h.notFirst hkey
      depth_eq := hlength
      descends := h.descends
      kept := hkept
      ne_nil := List.cons_ne_nil _ _
      notAllowed := rfl }
  dsimp only at hclose
  split at hclose
  case h_1 houter =>
    cases hclose
    rw [houter] at hpopped
    exact (hclosed none lx.outerPending (by rw [hpopped, houter]; rfl) hkept.forget).sound
  case h_2 pending outer houter =>
    cases hclose
    rw [houter] at hpopped hkept
    exact (hclosed pending outer hpopped hkept.2).sound

theorem lt_column_advance {indent : Int} {cur : Cursor} (h : indent ≤ (cur.column : Int)) :
    indent < ((cur.advance 1).column : Int) :=
  Int.lt_of_le_of_lt h (Int.ofNat_lt.mpr (Nat.lt_succ_self cur.column))

theorem Ready.flowEntry? (h : lx.Ready) (hentry : lx.flowEntry? = some lx') : lx'.Sound := by
  unfold Lexer.flowEntry? at hentry
  simp only [Option.bind_eq_bind, Option.bind_eq_some_iff] at hentry
  obtain ⟨forgotten, hforget, hentry⟩ := hentry
  cases hentry
  obtain rfl := eq_of_forget? hforget
  have hkey : Token.flowEntry ≠ .key := by simp
  exact h.toCore.emit (h.good.cons h.notFirst hkey) (fun _ => rfl) (Cursor.precedes_advance _ 1)
    (h.kept.forget.mono (Int.le_refl _) (List.suffix_cons _ _))
    fun houter _ => .inr (lt_column_advance (h.inBlock houter))

/-! ### Signs of blocks -/

theorem openBlock_of_not {column : Nat} {place : Option Nat} {token : Token}
    (h : ¬(lx.outerPending = [] ∧ lx.indent < (column : Int))) : lx.openBlock column place token = lx := by
  unfold openBlock
  rw [if_neg]
  intro hopens
  obtain ⟨hflow, hlt⟩ := Bool.and_eq_true_iff.mp hopens
  exact h ⟨inFlow_eq_false_iff.mp (by simpa using hflow), of_decide_eq_true hlt⟩

theorem openBlock_of_lt {column : Nat} {place : Option Nat} {token : Token} (houter : lx.outerPending = [])
    (hlt : lx.indent < (column : Int)) :
    lx.openBlock column place token =
      let opened : Lexer := { lx with indent := column, outerIndents := lx.indent :: lx.outerIndents }
      match place with
      | some place => opened.emitAt place token
      | none => opened.emit token := by
  have hopens : (!lx.inFlow && decide (lx.indent < (column : Int))) = true := by
    rw [inFlow_eq_false_iff.mpr houter, decide_eq_true hlt]
    rfl
  unfold openBlock
  exact if_pos hopens

theorem openBlock_pending (lx : Lexer) (column : Nat) (token : Token) :
    (lx.openBlock column none token).pending = lx.pending := by
  unfold openBlock
  split <;> rfl

theorem eq_of_pending_none (h : lx.pending = none) : { lx with pending := none } = lx := by
  cases lx
  cases h
  rfl

/-- A sign of a block, outside of brackets and braces, stands deeper than the block around it. -/
theorem Ready.openBlock {token : Token} (h : lx.Ready) (houter : lx.outerPending = [])
    (hallowed : lx.nameAllowed = true) (hneutral : token.IsNeutral) :
    lx.openBlock lx.cursor.column none token =
        { lx with indent := lx.cursor.column, outerIndents := lx.indent :: lx.outerIndents, tokens := token :: lx.tokens }
      ∧ Core { lx with
          indent := lx.cursor.column, outerIndents := lx.indent :: lx.outerIndents, tokens := token :: lx.tokens } := by
  have hlt : lx.indent < (lx.cursor.column : Int) := h.deeper houter hallowed
  refine ⟨openBlock_of_lt houter hlt, ?_⟩
  exact
    { quiet := h.quiet
      good := h.good.cons h.notFirst hneutral.1
      depth_eq := (hneutral.2 _).trans h.depth_eq
      descends := ⟨hlt, h.descends⟩ }

/-- A sign of a block, in front of which a block may begin. Inside brackets and braces none does. -/
theorem Ready.sign {start token : Token} {allowed : Bool} (h : lx.Ready)
    (hallowed : ¬(!lx.inFlow && !lx.nameAllowed) = true) (hstart : start.IsNeutral) (hdepth : ∀ n, token.depth n = n)
    (hopened : Good (token :: start :: lx.tokens)) (hsame : flowDepth lx.tokens ≠ 0 → Good (token :: lx.tokens)) :
    (((({ lx.openBlock lx.cursor.column none start with pending := none } : Lexer).allowName allowed).emit
      token).advance 1).Sound := by
  by_cases houter : lx.outerPending = []
  · have hname : lx.nameAllowed = true := by simpa [inFlow_eq_false_iff.mpr houter] using hallowed
    obtain ⟨hopen, hcore⟩ := h.openBlock houter hname hstart
    rw [hopen]
    refine hcore.emit hopened hdepth (Cursor.precedes_advance _ 1) ?_
      fun _ _ => .inr (lt_column_advance (Int.le_refl _))
    show Kept _ _ (none :: lx.outerPending)
    rw [houter]
    exact kept_none
  · have hflow : flowDepth lx.tokens ≠ 0 := by
      rw [h.depth_eq]
      exact fun hzero => houter (List.eq_nil_of_length_eq_zero hzero)
    rw [openBlock_of_not fun hopens => houter hopens.1]
    exact h.toCore.emit (hsame hflow) hdepth (Cursor.precedes_advance _ 1)
      (h.kept.forget.mono (Int.le_refl _) (List.suffix_cons _ _)) fun hnil => absurd hnil houter

theorem Ready.blockEntry? (h : lx.Ready) (hentry : lx.blockEntry? = some lx') : lx'.Sound := by
  have hstart : Token.blockSequenceStart.IsNeutral := ⟨by simp, fun _ => rfl⟩
  have hkey : Token.blockEntry ≠ .key := by simp
  unfold Lexer.blockEntry? at hentry
  split at hentry
  case isTrue => exact absurd hentry (by simp)
  case isFalse hallowed =>
    simp only [Option.bind_eq_bind, Option.bind_eq_some_iff] at hentry
    obtain ⟨forgotten, hforget, hentry⟩ := hentry
    cases hentry
    obtain rfl := eq_of_forget? hforget
    exact h.sign hallowed hstart (fun _ => rfl) ((h.good.cons h.notFirst hstart.1).cons (List.cons_ne_nil _ _) hkey)
      fun _ => h.good.cons h.notFirst hkey

theorem Ready.explicitName? (h : lx.Ready) (hexplicit : lx.explicitName? = some lx') : lx'.Sound := by
  have hstart : Token.blockMappingStart.IsNeutral := ⟨by simp, fun _ => rfl⟩
  unfold Lexer.explicitName? at hexplicit
  split at hexplicit
  case isTrue => exact absurd hexplicit (by simp)
  case isFalse hallowed =>
    simp only [Option.bind_eq_bind, Option.bind_eq_some_iff] at hexplicit
    obtain ⟨forgotten, hforget, hexplicit⟩ := hexplicit
    cases hexplicit
    obtain rfl := eq_of_forget? hforget
    exact h.sign hallowed hstart (fun _ => rfl) (h.good.cons_key h.notFirst) h.good.cons_key_of_depth

/-! ### Colons -/

theorem emitAt_eq {front before : List Token} {place : Nat} {token : Token} (htokens : lx.tokens = front ++ before)
    (hplace : before.length = place) : lx.emitAt place token = { lx with tokens := front ++ token :: before } := by
  have hlength : lx.tokens.length - place = front.length := by
    rw [htokens, List.length_append, hplace, Nat.add_sub_cancel]
  unfold emitAt
  rw [hlength, htokens, insertIdx_length_append]

/-- A mark put after the fact. -/
theorem Ready.mark {front before : List Token} (h : lx.Ready) (htokens : lx.tokens = front ++ before)
    (hgood : Good (front ++ .key :: before))
    (hplaces : ∀ other, some other ∈ lx.outerPending → other.place < before.length) :
    Closed { lx with tokens := front ++ .key :: before, pending := none, nameAllowed := false } where
  quiet := h.quiet
  good := hgood
  depth_eq := by
    rw [← h.depth_eq, htokens]
    exact Token.flowDepth_append_congr rfl
  descends := h.descends
  kept := by
    have hkept : Kept lx.indent (front ++ before) lx.outerPending := htokens ▸ h.kept.2
    exact (hkept.insert [.key] hplaces).push
  ne_nil := List.append_ne_nil_of_right_ne_nil _ (List.cons_ne_nil _ _)
  notAllowed := rfl

/-- A mark put after the fact, with a block that begins there. -/
theorem Ready.markBlock {front before : List Token} {column : Nat} (h : lx.Ready) (houter : lx.outerPending = [])
    (hlt : lx.indent < (column : Int)) (htokens : lx.tokens = front ++ before)
    (hgood : Good (front ++ .key :: .blockMappingStart :: before)) :
    Closed { lx with
      tokens := front ++ .key :: .blockMappingStart :: before, pending := none, nameAllowed := false, indent := column
      outerIndents := lx.indent :: lx.outerIndents } where
  quiet := h.quiet
  good := hgood
  depth_eq := by
    rw [← h.depth_eq, htokens]
    exact Token.flowDepth_append_congr rfl
  descends := ⟨hlt, h.descends⟩
  kept := by
    show Kept _ _ (none :: lx.outerPending)
    rw [houter]
    exact kept_none
  ne_nil := List.append_ne_nil_of_right_ne_nil _ (List.cons_ne_nil _ _)
  notAllowed := rfl

/-- The name that was remembered on this level, marked. -/
theorem Ready.marked {name : PendingName} (h : lx.Ready) (hname : lx.pending = some name) :
    let marked : Lexer := { lx.emitAt name.place .key with pending := none }
    ((marked.openBlock name.column (some name.place) .blockMappingStart).allowName false).Closed := by
  intro marked
  obtain ⟨⟨token, before, hfits⟩, hplaces⟩ := h.kept.1 name hname
  obtain ⟨after, hafter⟩ := hfits.suffix
  have htokens : lx.tokens = (after ++ [token]) ++ before := by simp [← hafter]
  have hgood : Good (after ++ token :: before) := hafter ▸ h.good
  have hmarked : marked = { lx with tokens := (after ++ [token]) ++ .key :: before, pending := none } := by
    show ({ lx.emitAt name.place .key with pending := none } : Lexer) = _
    rw [emitAt_eq htokens hfits.place]
  by_cases hopens : lx.outerPending = [] ∧ lx.indent < (name.column : Int)
  · have hopened : marked.openBlock name.column (some name.place) .blockMappingStart =
        ({ marked with indent := name.column, outerIndents := lx.indent :: lx.outerIndents } : Lexer).emitAt name.place
          .blockMappingStart := openBlock_of_lt hopens.1 hopens.2
    have hfront : (after ++ [token]) ++ .key :: before = (after ++ [token, .key]) ++ before := by simp
    rw [hopened, hmarked, emitAt_eq hfront hfits.place]
    have hgood' : Good ((after ++ [token, .key]) ++ .blockMappingStart :: before) := by
      rw [List.append_assoc]
      exact hgood.mark_block hfits.good hfits.notKey fun hnil => (hfits.first hnil).2
    have hsame : (after ++ [token, .key]) ++ .blockMappingStart :: before =
        (after ++ [token]) ++ .key :: .blockMappingStart :: before := by simp
    rw [hsame] at hgood' ⊢
    exact h.markBlock hopens.1 hopens.2 htokens hgood'
  · -- where the mark begins no block, the name has to fit as it stands
    have houter : lx.outerPending.length = 0 → lx.outerPending = [] := List.eq_nil_of_length_eq_zero
    have hne : before ≠ [] := by
      rintro rfl
      exact hopens ⟨houter hfits.depth_eq.symm, (hfits.first rfl).1⟩
    have hforeign : flowDepth before = 0 → token.IsForeign := by
      intro hzero
      rw [hfits.depth_eq] at hzero
      exact (hfits.begins hzero).resolve_left fun hlt => hopens ⟨houter hzero, hlt⟩
    have hgood' : Good ((after ++ [token]) ++ .key :: before) := by
      rw [List.append_assoc]
      exact hgood.mark hfits.good hfits.notKey hne hforeign
    have hopened : marked.openBlock name.column (some name.place) .blockMappingStart = marked := openBlock_of_not hopens
    rw [hopened, hmarked]
    exact h.mark htokens hgood' (hfits.place ▸ hplaces)

theorem Ready.colon? (h : lx.Ready) (hcolon : lx.colon? = some lx') : lx'.Sound := by
  have hkey : Token.value ≠ .key := by simp
  have hstart : Token.blockMappingStart.IsNeutral := ⟨by simp, fun _ => rfl⟩
  unfold Lexer.colon? at hcolon
  split at hcolon
  case h_1 name hname =>
    cases hcolon
    exact (h.marked hname).emit ⟨hkey, fun _ => rfl⟩ (Cursor.precedes_advance _ 1)
  case h_2 hnone =>
    split at hcolon
    case isTrue => exact absurd hcolon (by simp)
    case isFalse hallowed =>
      cases hcolon
      have hpending := openBlock_pending lx lx.cursor.column .blockMappingStart
      rw [← eq_of_pending_none (hpending.trans hnone)]
      exact h.sign hallowed hstart (fun _ => rfl) ((h.good.cons h.notFirst hstart.1).cons (List.cons_ne_nil _ _) hkey)
        fun _ => h.good.cons h.notFirst hkey

/-! ### Scalars -/

theorem isNeutral_scalar (style : Style) (text : List Char) : (Token.scalar style text).IsNeutral :=
  ⟨by simp, fun _ => rfl⟩

theorem Ready.quoted? {double : Bool} (h : lx.Ready) (hquoted : lx.quoted? double = some lx') : lx'.Sound := by
  refine h.content? (fun token cursor htake => ?_) hquoted
  simp only [Option.bind_eq_bind, Option.bind_eq_some_iff] at htake
  obtain ⟨⟨text, next⟩, hnext, htake⟩ := htake
  cases htake
  exact ⟨isNeutral_scalar .quoted text, (Cursor.precedes_advance _ 1).trans (precedes_takeQuoted? hnext)⟩

theorem Ready.block? {literal : Bool} (h : lx.Ready) (hblock : lx.block? literal = some lx') : lx'.Sound := by
  unfold Lexer.block? at hblock
  simp only [Option.bind_eq_bind, Option.bind_eq_some_iff] at hblock
  obtain ⟨forgotten, hforget, ⟨text, cursor⟩, htake, hblock⟩ := hblock
  obtain rfl := eq_of_forget? hforget
  cases hblock
  have hneutral := isNeutral_scalar (if literal = true then .literal else .folded) text
  have hstep := Cursor.precedes_advance lx.cursor 1
  have hstart : StartsQuiet cursor.rest := startsQuiet_takeBlock? (h.quiet.precedes hstep) htake
  exact h.toCore.emit (h.good.cons h.notFirst hneutral.1) hneutral.2 (hstep.trans (precedes_takeBlock? htake))
    (h.kept.forget.mono (Int.le_refl _) (List.suffix_cons _ _)) fun _ _ => .inl hstart

/-- A plain scalar, given that the name which it may be can be remembered. -/
theorem Sound.plain? (h : lx.Sound) (hplain : lx.plain? = some lx')
    (hremember : ∀ text remembered, lx.remember? = some remembered →
      takePlain? (remembered.cursor.rest.length + 1) remembered.inFlow remembered.margin [] (.spaces [])
        remembered.cursor = some text →
      Good (.scalar .plain text.1 :: lx.tokens) ∧ ∃ pending, remembered = { lx with pending := pending }
        ∧ Kept lx.indent (.scalar .plain text.1 :: lx.tokens) (pending :: lx.outerPending)) : lx'.Sound := by
  unfold Lexer.plain? at hplain
  simp only [Option.bind_eq_bind, Option.bind_eq_some_iff] at hplain
  obtain ⟨remembered, hremembered, ⟨text, broken, cursor⟩, htake, hplain⟩ := hplain
  cases hplain
  obtain ⟨hgood, pending, rfl, hkept⟩ := hremember _ _ hremembered htake
  exact h.toCore.emit hgood (fun _ => rfl) (precedes_takePlain? htake) hkept fun _ hbroken =>
    .inl (startsQuiet_takePlain? h.quiet htake (fun hgap => absurd hgap Bool.false_ne_true) hbroken)

theorem Ready.plain? (h : lx.Ready) (hplain : lx.plain? = some lx') : lx'.Sound := by
  refine h.toSound.plain? hplain fun text remembered hremember _ => ?_
  have hkey := (isNeutral_scalar .plain text.1).1
  exact ⟨h.good.cons h.notFirst hkey, h.remember? hkey hremember⟩

/-- A plain scalar that begins with a foreign blank. -/
theorem Sound.plain?_foreign {c : Char} {cs : List Char} (h : lx.Sound) (hrest : lx.cursor.rest = c :: cs)
    (hc : isForeign c = true) (hplain : lx.plain? = some lx') : lx'.Sound := by
  refine h.plain? hplain fun text remembered hremember htake => ?_
  have hfirst : lx.tokens = [] → lx.indent < (lx.cursor.column : Int) := by
    intro hnil
    have hindent := (h.start hnil).1
    omega
  obtain ⟨more, htext⟩ := exists_of_takePlain?_foreign ((cursor_of_remember? hremember).symm ▸ hrest) hc htake
  have hforeign : (Token.scalar .plain text.1).IsForeign := by
    rw [htext]
    exact hc
  exact ⟨h.good.cons_foreign hforeign, h.remember? hforeign.ne_key (fun _ _ => .inr hforeign)
    (fun hnil => ⟨hfirst hnil, hforeign⟩) hremember⟩

/-! ### All tokens -/

theorem precedes_takeName {cur later : Cursor} {token : Token} {toToken : List Char → Token}
    (hneutral : ∀ name, (toToken name).IsNeutral)
    (h : ((takeAnchor? (cur.advance 1)).bind fun found => some (toToken found.1, found.2)) = some (token, later)) :
    token.IsNeutral ∧ cur.Precedes later := by
  rw [Option.bind_eq_some_iff] at h
  obtain ⟨⟨name, next⟩, hname, h⟩ := h
  cases h
  exact ⟨hneutral name, (Cursor.precedes_advance cur 1).trans (precedes_takeAnchor? hname)⟩

/-- One of two branches is taken. -/
theorem of_ite {α : Type} {p : Prop} [Decidable p] {a b : Option α} {x : α} {q : Prop}
    (h : (if p then a else b) = some x) (ha : p → a = some x → q) (hb : ¬p → b = some x → q) : q := by
  split at h
  case isTrue hp => exact ha hp h
  case isFalse hp => exact hb hp h

/-- **A token that does not stand first on a quiet line leaves the lexer sound.** -/
theorem Ready.token? {c : Char} {cs : List Char} (h : lx.Ready) (htoken : lx.token? c cs = some lx') : lx'.Sound := by
  unfold Lexer.token? at htoken
  refine of_ite htoken (fun _ htoken => ?_) fun _ htoken => ?_
  · simp only [Option.bind_eq_bind, Option.bind_eq_some_iff] at htoken
    obtain ⟨ended, hend, found, hfound, htoken⟩ := htoken
    cases htoken
    exact h.directive hend hfound
  refine of_ite htoken (fun _ htoken => ?_) fun _ htoken => ?_
  · simp only [Option.bind_eq_bind, Option.bind_eq_some_iff] at htoken
    obtain ⟨ended, hend, htoken⟩ := htoken
    cases htoken
    exact h.documentMark ⟨by simp, fun _ => rfl⟩ hend
  refine of_ite htoken (fun _ htoken => ?_) fun _ htoken => ?_
  · simp only [Option.bind_eq_bind, Option.bind_eq_some_iff] at htoken
    obtain ⟨ended, hend, htoken⟩ := htoken
    cases htoken
    exact h.documentMark ⟨by simp, fun _ => rfl⟩ hend
  refine of_ite htoken (fun _ htoken => ?_) fun _ htoken => ?_
  · exact h.openFlow? (by simp) (fun _ => rfl) htoken
  refine of_ite htoken (fun _ htoken => ?_) fun _ htoken => ?_
  · exact h.openFlow? (by simp) (fun _ => rfl) htoken
  refine of_ite htoken (fun _ htoken => ?_) fun _ htoken => ?_
  · exact h.closeFlow? (by simp) (fun _ => rfl) htoken
  refine of_ite htoken (fun _ htoken => ?_) fun _ htoken => ?_
  · exact h.closeFlow? (by simp) (fun _ => rfl) htoken
  refine of_ite htoken (fun _ htoken => ?_) fun _ htoken => ?_
  · exact h.flowEntry? htoken
  refine of_ite htoken (fun _ htoken => ?_) fun _ htoken => ?_
  · exact h.blockEntry? htoken
  refine of_ite htoken (fun _ htoken => ?_) fun _ htoken => ?_
  · exact h.explicitName? htoken
  refine of_ite htoken (fun _ htoken => ?_) fun _ htoken => ?_
  · exact h.colon? htoken
  refine of_ite htoken (fun _ htoken => ?_) fun _ htoken => ?_
  · exact h.content? (fun _ _ => precedes_takeName fun name => ⟨by simp, fun _ => rfl⟩) htoken
  refine of_ite htoken (fun _ htoken => ?_) fun _ htoken => ?_
  · exact h.content? (fun _ _ => precedes_takeName fun name => ⟨by simp, fun _ => rfl⟩) htoken
  refine of_ite htoken (fun _ htoken => ?_) fun _ htoken => ?_
  · refine h.content? (fun token cursor htake => ?_) htoken
    obtain ⟨⟨handle, suffix, rfl⟩, hcursor⟩ := takeTag?_spec htake
    exact ⟨⟨by simp, fun _ => rfl⟩, hcursor⟩
  refine of_ite htoken (fun _ htoken => ?_) fun _ htoken => ?_
  · exact h.block? htoken
  refine of_ite htoken (fun _ htoken => ?_) fun _ htoken => ?_
  · exact h.block? htoken
  refine of_ite htoken (fun _ htoken => ?_) fun _ htoken => ?_
  · exact h.quoted? htoken
  refine of_ite htoken (fun _ htoken => ?_) fun _ htoken => ?_
  · exact h.quoted? htoken
  refine of_ite htoken (fun _ htoken => ?_) fun _ htoken => ?_
  · exact h.plain? htoken
  · exact absurd htoken (by simp)

theorem isForeign_of_startsPlain {c : Char} {cs : List Char} (hstart : StartsQuiet (c :: cs))
    (hplain : lx.startsPlain c cs = true) : isForeign c = true := by
  have hne : ∀ d, isBlank d = false → d ≠ '#' → (c == d) = false := fun d hd hhash =>
    beq_false_of_ne (hstart.ne hd hhash)
  unfold startsPlain at hplain
  rw [hne '-' (by decide) (by decide), hne '?' (by decide) (by decide), hne ':' (by decide) (by decide)] at hplain
  rcases hstart.cases_head with rfl | hbreak | hspace | hforeign
  · exact absurd hplain (by simp)
  · exact absurd hplain (by simp [hbreak])
  · exact absurd hplain (by simp [hspace])
  · exact hforeign

/-- What stands first on a quiet line is a plain scalar that begins with a foreign blank. -/
theorem plain?_of_startsQuiet {c : Char} {cs : List Char} (hrest : lx.cursor.rest = c :: cs)
    (hstart : StartsQuiet (c :: cs)) (htoken : lx.token? c cs = some lx') :
    isForeign c = true ∧ lx.plain? = some lx' := by
  have hne : ∀ d, isBlank d = false → d ≠ '#' → c ≠ d := fun d => hstart.ne
  have hmark : ∀ d, isBlank d = false → d ≠ '#' → lx.cursor.isAtMark d = false := fun d hd hhash =>
    Cursor.isAtMark_of_ne hrest (hne d hd hhash)
  unfold Lexer.token? at htoken
  simp only [hne '%' (by decide) (by decide), hmark '-' (by decide) (by decide), hmark '.' (by decide) (by decide),
    hne '[' (by decide) (by decide), hne ']' (by decide) (by decide), hne ',' (by decide) (by decide),
    hne '\x7b' (by decide) (by decide), hne '\x7d' (by decide) (by decide), hne '-' (by decide) (by decide),
    hne '?' (by decide) (by decide), hne ':' (by decide) (by decide), hne '*' (by decide) (by decide),
    hne '&' (by decide) (by decide), hne '!' (by decide) (by decide), hne '|' (by decide) (by decide),
    hne '>' (by decide) (by decide), hne '\'' (by decide) (by decide), hne '"' (by decide) (by decide),
    decide_false, Bool.and_false, Bool.false_and, Bool.false_eq_true, if_false] at htoken
  refine of_ite htoken (fun hplain htoken => ?_) fun _ htoken => absurd htoken (by simp)
  exact ⟨isForeign_of_startsPlain hstart hplain, htoken⟩

/-! ## Runs -/

theorem Sound.token? {c : Char} {cs : List Char} (h : lx.Sound) (hrest : lx.cursor.rest = c :: cs)
    (hindent : lx.outerPending = [] → lx.indent ≤ (lx.cursor.column : Int)) (htoken : lx.token? c cs = some lx') :
    lx'.Sound := by
  by_cases hquiet : lx.outerPending = [] ∧ StartsQuiet lx.cursor.rest
  · obtain ⟨hforeign, hplain⟩ := plain?_of_startsQuiet hrest (hrest ▸ hquiet.2) htoken
    exact h.plain?_foreign hrest hforeign hplain
  · have hready : lx.Ready :=
      { h with
        notFirst := fun hnil => hquiet ⟨h.toCore.outerPending_of_nil hnil, (h.start hnil).2⟩
        inBlock := hindent
        deeper := fun houter hallowed => by
          rcases h.lineStart houter hallowed with hstart | ⟨-, hlt⟩
          · exact absurd ⟨houter, hstart⟩ hquiet
          · exact hlt }
    exact hready.token? htoken

/-- **The tokens of a quiet text.** Every name that is marked outside of brackets and braces begins a block or with a
foreign blank. -/
theorem Sound.run? {fuel : Nat} {tokens : List Token} (h : lx.Sound) (hrun : lx.run? fuel = some tokens) :
    ∃ found, tokens = found.reverse ∧ Good found := by
  induction fuel generalizing lx with
  | zero => exact absurd hrun (by simp [Lexer.run?])
  | succ fuel ih =>
      unfold Lexer.run? at hrun
      simp only [Option.bind_eq_bind, Option.bind_eq_some_iff] at hrun
      obtain ⟨expired, hexpire, hrun⟩ := hrun
      have hexpired : expired.Sound := (h.skipToToken _).expire? hexpire
      have hclosed : (expired.closeBlocks expired.cursor.column).Sound := hexpired.closeBlocks _
      split at hrun
      case h_1 =>
        simp only [Option.bind_eq_some_iff] at hrun
        obtain ⟨last, hlast, hrun⟩ := hrun
        cases hrun
        obtain rfl := eq_of_forget? hlast
        exact ⟨_, rfl, (hclosed.closeBlocks (-1)).good⟩
      case h_2 c cs hrest =>
        simp only [Option.bind_eq_some_iff] at hrun
        obtain ⟨next, hnext, hrun⟩ := hrun
        refine ih (hclosed.token? hrest (fun houter => ?_) hnext) hrun
        rw [closeBlocks_outerPending] at houter
        rw [closeBlocks_cursor]
        exact hexpired.closeBlocks_le (by omega) houter

end Lexer

/-- The tokens of a quiet text, latest first. -/
theorem Token.exists_good_of_ofText? {cs : List Char} {tokens : List Token} (h : HasQuietLines cs)
    (htokens : Token.ofText? cs = some tokens) : ∃ found, tokens = found.reverse ∧ Good found := by
  unfold Token.ofText? at htokens
  split at htokens
  · exact (Lexer.sound_start h.startsQuiet h.quiet).run? htokens
  · exact absurd htokens (by simp)

end RecipeScript.Yaml