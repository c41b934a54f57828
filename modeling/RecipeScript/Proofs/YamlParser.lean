import RecipeScript.Proofs.YamlMarks
import RecipeScript.Yaml.Node

/-!
# What the readers of nodes read

A reader of nodes takes tokens from the front. It cannot leave the brackets and braces deeper than it has found them:
what it reads inside of them it reads up to the closing sign. Nor does it stop right behind the beginning of a block of
members. `Reads` says both, and holds of every reader, by induction on the fuel that they share (`readers`).

The depth may well be less than before. A member of brackets whose name is left out swallows the token after its
question mark, and if that is the closing bracket the reader stays inside, though the tokens are out.
-/

namespace RecipeScript.Yaml

open Token (flowDepth)

/-! ## Depths -/

/-- The depth after some tokens, the earliest first. -/
def depthAfter (taken : List Token) (n : Nat) : Nat :=
  taken.foldl Token.depth n

theorem depthAfter_append (front taken : List Token) (n : Nat) :
    depthAfter (front ++ taken) n = depthAfter taken (depthAfter front n) :=
  List.foldl_append

theorem flowDepth_reverse_append (taken before : List Token) :
    flowDepth (taken.reverse ++ before) = depthAfter taken (flowDepth before) := by
  induction taken generalizing before with
  | nil => rfl
  | cons token taken ih =>
      rw [List.reverse_cons, List.append_assoc]
      exact ih (token :: before)

/-! ## What is read -/

/-- Some tokens are read, which close at least so many brackets or braces more than they open, and the last of which is
not the beginning of a block of members. -/
def Reads (closing : Nat) (st st' : ParseState) : Prop :=
  ∃ taken, st.tokens = taken ++ st'.tokens ∧ (∀ n, depthAfter taken n ≤ n - closing)
    ∧ taken.getLast? ≠ some .blockMappingStart

section Reads

variable {closing : Nat} {st st' st'' : ParseState} {token : Token} {rest : List Token}

theorem reads_of_tokens_eq (h : st.tokens = st'.tokens) : Reads 0 st st' :=
  ⟨[], h, fun _ => Nat.le_refl _, by simp⟩

@[refl]
theorem Reads.refl (st : ParseState) : Reads 0 st st :=
  reads_of_tokens_eq rfl

theorem Reads.trans (h : Reads 0 st st') (h' : Reads closing st' st'') : Reads closing st st'' := by
  obtain ⟨front, hfront, hdepth, hlast⟩ := h
  obtain ⟨taken, htaken, hdepth', hlast'⟩ := h'
  refine ⟨front ++ taken, by rw [hfront, htaken, List.append_assoc], fun n => ?_, ?_⟩
  · rw [depthAfter_append]
    exact Nat.le_trans (hdepth' _) (Nat.sub_le_sub_right (hdepth n) closing)
  · rw [List.getLast?_append]
    intro heq
    rcases Option.or_eq_some_iff.mp heq with hsome | ⟨-, hsome⟩
    · exact hlast' hsome
    · exact hlast hsome

/-- A token is read that opens nothing. -/
theorem reads_next (h : st.tokens = token :: rest) (hdepth : ∀ n, token.depth n ≤ n - closing)
    (htoken : token ≠ .blockMappingStart) : Reads closing st st.next := by
  refine ⟨[token], ?_, hdepth, fun heq => htoken (Option.some.inj heq)⟩
  unfold ParseState.next
  rw [h]
  rfl

/-- An opening bracket or brace is read, and then what closes it. -/
theorem Reads.of_open (h : st.tokens = token :: rest) (hdepth : ∀ n, token.depth n = n + 1)
    (hnext : Reads 1 st.next st') : Reads 0 st st' := by
  obtain ⟨taken, htaken, hdepth', hlast⟩ := hnext
  refine ⟨token :: taken, ?_, fun n => ?_, ?_⟩
  · unfold ParseState.next at htaken
    rw [h] at htaken ⊢
    exact congrArg (token :: ·) htaken
  · show depthAfter taken (token.depth n) ≤ n
    rw [hdepth]
    exact hdepth' (n + 1)
  · cases taken with
    | nil =>
        intro heq
        have htoken : token = .blockMappingStart := Option.some.inj heq
        rw [htoken] at hdepth
        exact absurd (hdepth 0) (by decide)
    | cons other taken => rwa [List.getLast?_cons_cons]

/-- The beginning of a block of members is read, then one more token, and then the rest. -/
theorem Reads.of_block (h : st.tokens = .blockMappingStart :: token :: rest) (hdepth : ∀ n, token.depth n ≤ n)
    (htoken : token ≠ .blockMappingStart) (hnext : Reads 0 st.next.next st') : Reads 0 st st' := by
  obtain ⟨taken, htaken, hdepth', hlast⟩ := hnext
  refine ⟨.blockMappingStart :: token :: taken, ?_, fun n => ?_, ?_⟩
  · unfold ParseState.next at htaken
    rw [h] at htaken ⊢
    exact congrArg (Token.blockMappingStart :: token :: ·) htaken
  · exact Nat.le_trans (hdepth' _) (hdepth n)
  · cases taken with
    | nil => exact fun heq => htoken (Option.some.inj heq)
    | cons other taken => rwa [List.getLast?_cons_cons, List.getLast?_cons_cons]

/-- A token is read that neither opens nor closes anything. -/
theorem reads_neutral (h : st.tokens = token :: rest) (htoken : ∀ n, token.depth n = n)
    (hstart : token ≠ .blockMappingStart) : Reads 0 st st.next :=
  reads_next h (fun n => Nat.le_of_eq (htoken n)) hstart

theorem tokens_next (h : st.tokens = token :: rest) : st.next.tokens = rest := by
  unfold ParseState.next
  rw [h]
  rfl

theorem reads_takeProperties? {properties : Properties} (h : st.takeProperties? = some (properties, st')) :
    Reads 0 st st' := by
  unfold ParseState.takeProperties? at h
  split at h
  case h_1 name handle suffix rest htokens =>
    simp only [Option.bind_eq_bind, Option.bind_eq_some_iff] at h
    obtain ⟨tag, -, h⟩ := h
    cases h
    exact (reads_neutral htokens (fun _ => rfl) (by simp)).trans
      (reads_neutral (tokens_next htokens) (fun _ => rfl) (by simp))
  case h_2 handle suffix name rest htokens =>
    simp only [Option.bind_eq_bind, Option.bind_eq_some_iff] at h
    obtain ⟨tag, -, h⟩ := h
    cases h
    exact (reads_neutral htokens (fun _ => rfl) (by simp)).trans
      (reads_neutral (tokens_next htokens) (fun _ => rfl) (by simp))
  case h_3 name rest _ htokens =>
    cases h
    exact reads_neutral htokens (fun _ => rfl) (by simp)
  case h_4 handle suffix rest _ htokens =>
    simp only [Option.bind_eq_bind, Option.bind_eq_some_iff] at h
    obtain ⟨tag, -, h⟩ := h
    cases h
    exact reads_neutral htokens (fun _ => rfl) (by simp)
  case h_5 =>
    cases h
    rfl

end Reads

/-! ## Readers -/

/-- What the readers with some fuel read. -/
structure Readers (fuel : Nat) : Prop where
  node : ∀ {block indentless st node st'}, takeNode? fuel block indentless st = some (node, st') → Reads 0 st st'
  optional : ∀ {block indentless ends st node st'},
    takeOptional? fuel block indentless ends st = some (node, st') → Reads 0 st st'
  blockItems : ∀ {st items st'}, takeBlockItems? fuel st = some (items, st') → Reads 0 st st'
  indentlessItems : ∀ {st items st'}, takeIndentlessItems? fuel st = some (items, st') → Reads 0 st st'
  blockMembers : ∀ {st members st'}, takeBlockMembers? fuel st = some (members, st') →
    (∃ token rest, st.tokens = token :: rest ∧ token ≠ .blockMappingStart ∧ ∀ n, token.depth n ≤ n)
      ∧ Reads 0 st.next st'
  flowItem : ∀ {st item st'}, takeFlowItem? fuel st = some (item, st') → Reads 0 st st'
  flowItems : ∀ {first st items st'}, takeFlowItems? fuel first st = some (items, st') → Reads 1 st st'
  flowMember : ∀ {st member st'}, takeFlowMember? fuel st = some (member, st') → Reads 0 st st'
  flowMembers : ∀ {first st members st'}, takeFlowMembers? fuel first st = some (members, st') → Reads 1 st st'

theorem readers_zero : Readers 0 := by
  refine ⟨?_, ?_, ?_, ?_, ?_, ?_, ?_, ?_, ?_⟩
  all_goals
    intros
    rename_i h
    exact absurd h (by simp [takeNode?, takeOptional?, takeBlockItems?, takeIndentlessItems?, takeBlockMembers?, takeFlowItem?, takeFlowItems?, takeFlowMember?, takeFlowMembers?])

theorem exists_of_isAt {st : ParseState} {tokens : List Token} (h : st.isAt tokens = true) :
    ∃ token rest, st.tokens = token :: rest ∧ token ∈ tokens := by
  unfold ParseState.isAt at h
  cases htokens : st.tokens with
  | nil => simp [htokens] at h
  | cons token rest => exact ⟨token, rest, rfl, by simpa [htokens] using h⟩

theorem exists_of_isAt_singleton {st : ParseState} {token : Token} (h : st.isAt [token] = true) :
    ∃ rest, st.tokens = token :: rest := by
  obtain ⟨other, rest, htokens, hmem⟩ := exists_of_isAt h
  exact ⟨rest, by rw [htokens, List.mem_singleton.mp hmem]⟩

/-- The comma before an item or a member, except before the first one. -/
theorem reads_separator {st : ParseState} {first : Bool} (h : ¬(!first && !st.isAt [.flowEntry]) = true) :
    Reads 0 st (if first = true then st else st.next) := by
  cases first with
  | true => exact Reads.refl st
  | false =>
      obtain ⟨rest, htokens⟩ := exists_of_isAt_singleton (by simpa using h)
      exact reads_neutral htokens (fun _ => rfl) (by simp)

theorem Readers.blockMembers_reads {fuel : Nat} {st st' : ParseState} {members : List (Node × Node)}
    (r : Readers fuel) (h : takeBlockMembers? fuel st = some (members, st')) : Reads 0 st st' := by
  obtain ⟨⟨token, rest, htokens, htoken, hdepth⟩, hnext⟩ := r.blockMembers h
  exact (reads_next htokens hdepth htoken).trans hnext

section Readers

variable {fuel : Nat} {st st' : ParseState}

theorem Readers.blockItems_succ (r : Readers fuel) {items : List Node}
    (h : takeBlockItems? (fuel + 1) st = some (items, st')) : Reads 0 st st' := by
  unfold takeBlockItems? at h
  split at h
  case h_1 rest htokens =>
    simp only [Option.bind_eq_bind, Option.bind_eq_some_iff] at h
    obtain ⟨⟨item, next⟩, hitem, ⟨more, last⟩, hmore, h⟩ := h
    cases h
    exact ((reads_next htokens (fun _ => Nat.le_refl _) (by simp)).trans (r.optional hitem)).trans (r.blockItems hmore)
  case h_2 rest htokens =>
    cases h
    exact reads_next htokens (fun _ => Nat.le_refl _) (by simp)
  case h_3 => exact absurd h (by simp)

theorem Readers.indentlessItems_succ (r : Readers fuel) {items : List Node}
    (h : takeIndentlessItems? (fuel + 1) st = some (items, st')) : Reads 0 st st' := by
  unfold takeIndentlessItems? at h
  split at h
  case h_1 rest htokens =>
    simp only [Option.bind_eq_bind, Option.bind_eq_some_iff] at h
    obtain ⟨⟨item, next⟩, hitem, ⟨more, last⟩, hmore, h⟩ := h
    cases h
    exact ((reads_neutral htokens (fun _ => rfl) (by simp)).trans (r.optional hitem)).trans (r.indentlessItems hmore)
  case h_2 =>
    cases h
    rfl

/-- The value of a member, which may be left out with its colon, and what is done with it. -/
theorem Readers.value (r : Readers fuel) {α : Type} {x : α} {block indentless : Bool} {ends : List Token}
    {more : Node × ParseState → Option α}
    (h : (if st.isAt [.value] = true then (takeOptional? fuel block indentless ends st.next).bind more
      else (some (Node.empty, st)).bind more) = some x) :
    ∃ value st', Reads 0 st st' ∧ more (value, st') = some x := by
  split at h
  case isTrue hvalue =>
    rw [Option.bind_eq_some_iff] at h
    obtain ⟨⟨value, next⟩, hoptional, h⟩ := h
    obtain ⟨rest, htokens⟩ := exists_of_isAt_singleton hvalue
    exact ⟨value, next, (reads_neutral htokens (fun _ => rfl) (by simp)).trans (r.optional hoptional), h⟩
  case isFalse => exact ⟨.empty, st, Reads.refl st, h⟩

theorem Readers.blockMembers_succ (r : Readers fuel) {members : List (Node × Node)}
    (h : takeBlockMembers? (fuel + 1) st = some (members, st')) :
    (∃ token rest, st.tokens = token :: rest ∧ token ≠ .blockMappingStart ∧ ∀ n, token.depth n ≤ n)
      ∧ Reads 0 st.next st' := by
  unfold takeBlockMembers? at h
  split at h
  case h_1 rest htokens =>
    simp only [Option.bind_eq_bind, Option.bind_eq_some_iff] at h
    obtain ⟨⟨name, next⟩, hname, h⟩ := h
    obtain ⟨value, last, hvalue, h⟩ := r.value h
    simp only [Option.bind_eq_some_iff] at h
    obtain ⟨⟨more, final⟩, hmore, h⟩ := h
    cases h
    refine ⟨⟨_, rest, htokens, by simp, fun _ => Nat.le_refl _⟩, ?_⟩
    exact ((r.optional hname).trans hvalue).trans (r.blockMembers_reads hmore)
  case h_2 rest htokens =>
    cases h
    exact ⟨⟨_, rest, htokens, by simp, fun _ => Nat.le_refl _⟩, Reads.refl _⟩
  case h_3 => exact absurd h (by simp)

theorem Readers.flowItem_succ (r : Readers fuel) {item : Node} (h : takeFlowItem? (fuel + 1) st = some (item, st')) :
    Reads 0 st st' := by
  unfold takeFlowItem? at h
  split at h
  case h_1 rest htokens =>
    have hkey : Reads 0 st st.next := reads_neutral htokens (fun _ => rfl) (by simp)
    extract_lets next at h
    split at h
    case isTrue hends =>
      simp only [Option.bind_eq_bind, Option.bind_some] at h
      obtain ⟨value, last, hvalue, h⟩ := r.value h
      cases h
      -- whatever is passed over opens nothing
      have hskip : Reads 0 next next.next := by
        obtain ⟨token, rest', htokens', hmem⟩ := exists_of_isAt hends
        simp only [List.mem_cons, List.not_mem_nil, or_false] at hmem
        rcases hmem with rfl | rfl | rfl
        · exact reads_neutral htokens' (fun _ => rfl) (by simp)
        · exact reads_neutral htokens' (fun _ => rfl) (by simp)
        · exact reads_next htokens' (fun n => Nat.sub_le n 1) (by simp)
      exact (hkey.trans hskip).trans hvalue
    case isFalse =>
      simp only [Option.bind_eq_bind, Option.bind_eq_some_iff] at h
      obtain ⟨⟨name, last⟩, hname, h⟩ := h
      obtain ⟨value, final, hvalue, h⟩ := r.value h
      cases h
      exact (hkey.trans (r.node hname)).trans hvalue
  case h_2 => exact r.node h

theorem Readers.flowItems_succ (r : Readers fuel) {first : Bool} {items : List Node}
    (h : takeFlowItems? (fuel + 1) first st = some (items, st')) : Reads 1 st st' := by
  unfold takeFlowItems? at h
  split at h
  case isTrue hend =>
    cases h
    obtain ⟨rest, htokens⟩ := exists_of_isAt_singleton hend
    exact reads_next htokens (fun _ => Nat.le_refl _) (by simp)
  case isFalse =>
    split at h
    case isTrue => exact absurd h (by simp)
    case isFalse hentry =>
      extract_lets next at h
      have hnext : Reads 0 st next := reads_separator hentry
      split at h
      case isTrue hend =>
        cases h
        obtain ⟨rest, htokens⟩ := exists_of_isAt_singleton hend
        exact hnext.trans (reads_next htokens (fun _ => Nat.le_refl _) (by simp))
      case isFalse =>
        simp only [Option.bind_eq_bind, Option.bind_eq_some_iff] at h
        obtain ⟨⟨item, last⟩, hitem, ⟨more, final⟩, hmore, h⟩ := h
        cases h
        exact (hnext.trans (r.flowItem hitem)).trans (r.flowItems hmore)

theorem Readers.flowMember_succ (r : Readers fuel) {member : Node × Node}
    (h : takeFlowMember? (fuel + 1) st = some (member, st')) : Reads 0 st st' := by
  unfold takeFlowMember? at h
  split at h
  case h_1 rest htokens =>
    have hkey : Reads 0 st st.next := reads_neutral htokens (fun _ => rfl) (by simp)
    simp only [Option.bind_eq_bind, Option.bind_eq_some_iff] at h
    obtain ⟨⟨name, last⟩, hname, h⟩ := h
    obtain ⟨value, final, hvalue, h⟩ := r.value h
    cases h
    exact (hkey.trans (r.optional hname)).trans hvalue
  case h_2 =>
    simp only [Option.bind_eq_bind, Option.bind_eq_some_iff] at h
    obtain ⟨⟨name, last⟩, hname, h⟩ := h
    cases h
    exact r.node hname

theorem Readers.flowMembers_succ (r : Readers fuel) {first : Bool} {members : List (Node × Node)}
    (h : takeFlowMembers? (fuel + 1) first st = some (members, st')) : Reads 1 st st' := by
  unfold takeFlowMembers? at h
  split at h
  case isTrue hend =>
    cases h
    obtain ⟨rest, htokens⟩ := exists_of_isAt_singleton hend
    exact reads_next htokens (fun _ => Nat.le_refl _) (by simp)
  case isFalse =>
    split at h
    case isTrue => exact absurd h (by simp)
    case isFalse hentry =>
      extract_lets next at h
      have hnext : Reads 0 st next := reads_separator hentry
      split at h
      case isTrue hend =>
        cases h
        obtain ⟨rest, htokens⟩ := exists_of_isAt_singleton hend
        exact hnext.trans (reads_next htokens (fun _ => Nat.le_refl _) (by simp))
      case isFalse =>
        simp only [Option.bind_eq_bind, Option.bind_eq_some_iff] at h
        obtain ⟨⟨member, last⟩, hmember, ⟨more, final⟩, hmore, h⟩ := h
        cases h
        exact (hnext.trans (r.flowMember hmember)).trans (r.flowMembers hmore)

theorem Readers.optional_succ (r : Readers fuel) {block indentless : Bool} {ends : List Token} {node : Node}
    (h : takeOptional? (fuel + 1) block indentless ends st = some (node, st')) : Reads 0 st st' := by
  unfold takeOptional? at h
  split at h
  · cases h
    rfl
  · exact r.node h

/-- A block of members is read: its beginning, at least one more token, and the rest. -/
theorem Readers.blockMapping (r : Readers fuel) {rest : List Token} {members : List (Node × Node)}
    (htokens : st.tokens = .blockMappingStart :: rest) (h : takeBlockMembers? fuel st.next = some (members, st')) :
    Reads 0 st st' := by
  obtain ⟨⟨token, rest', htokens', htoken, hdepth⟩, hmore⟩ := r.blockMembers h
  have hboth : st.tokens = .blockMappingStart :: token :: rest' := by
    rw [htokens, ← htokens', tokens_next htokens]
  exact Reads.of_block hboth hdepth htoken hmore

/-- A node that has properties and nothing else. -/
theorem reads_emptyNode {properties : Properties} {node : Node}
    (h : (if (properties.anchor.isSome || properties.tag.isSome) = true then some (properties.emptyNode, st)
      else none) = some (node, st')) : Reads 0 st st' := by
  split at h
  · cases h
    rfl
  · exact absurd h (by simp)

theorem Readers.node_succ (r : Readers fuel) {block indentless : Bool} {node : Node}
    (h : takeNode? (fuel + 1) block indentless st = some (node, st')) : Reads 0 st st' := by
  unfold takeNode? at h
  split at h
  case h_1 name rest htokens =>
    simp only [Option.bind_eq_bind, Option.bind_eq_some_iff] at h
    obtain ⟨anchor, -, h⟩ := h
    cases h
    exact reads_neutral htokens (fun _ => rfl) (by simp)
  case h_2 =>
    simp only [Option.bind_eq_bind, Option.bind_eq_some_iff] at h
    obtain ⟨⟨properties, next⟩, hproperties, h⟩ := h
    have hnext : Reads 0 st next := reads_takeProperties? hproperties
    split at h
    case h_1 rest htokens =>
      split at h
      · simp only [Option.bind_eq_some_iff] at h
        obtain ⟨⟨items, last⟩, hitems, h⟩ := h
        cases h
        exact hnext.trans (r.indentlessItems hitems)
      · exact hnext.trans (reads_emptyNode h)
    case h_2 style text rest htokens =>
      cases h
      exact hnext.trans (reads_neutral htokens (fun _ => rfl) (by simp))
    case h_3 rest htokens =>
      simp only [Option.bind_eq_some_iff] at h
      obtain ⟨⟨items, last⟩, hitems, h⟩ := h
      cases h
      exact hnext.trans (Reads.of_open htokens (fun _ => rfl) (r.flowItems hitems))
    case h_4 rest htokens =>
      simp only [Option.bind_eq_some_iff] at h
      obtain ⟨⟨members, last⟩, hmembers, h⟩ := h
      cases h
      exact hnext.trans (Reads.of_open htokens (fun _ => rfl) (r.flowMembers hmembers))
    case h_5 token rest _ _ _ _ htokens =>
      split at h
      case isTrue hstart =>
        simp only [Option.bind_eq_some_iff] at h
        obtain ⟨⟨items, last⟩, hitems, h⟩ := h
        cases h
        obtain rfl : token = .blockSequenceStart := of_decide_eq_true (Bool.and_eq_true_iff.mp hstart).2
        exact (hnext.trans (reads_neutral htokens (fun _ => rfl) (by simp))).trans (r.blockItems hitems)
      case isFalse =>
        split at h
        case isTrue hstart =>
          simp only [Option.bind_eq_some_iff] at h
          obtain ⟨⟨members, last⟩, hmembers, h⟩ := h
          cases h
          obtain rfl : token = .blockMappingStart := of_decide_eq_true (Bool.and_eq_true_iff.mp hstart).2
          exact hnext.trans (r.blockMapping htokens hmembers)
        case isFalse => exact hnext.trans (reads_emptyNode h)
    case h_6 => exact hnext.trans (reads_emptyNode h)

theorem Readers.succ (r : Readers fuel) : Readers (fuel + 1) where
  node := r.node_succ
  optional := r.optional_succ
  blockItems := r.blockItems_succ
  indentlessItems := r.indentlessItems_succ
  blockMembers := r.blockMembers_succ
  flowItem := r.flowItem_succ
  flowItems := r.flowItems_succ
  flowMember := r.flowMember_succ
  flowMembers := r.flowMembers_succ

end Readers

theorem readers (fuel : Nat) : Readers fuel := by
  induction fuel with
  | zero => exact readers_zero
  | succ fuel ih => exact ih.succ

end RecipeScript.Yaml
