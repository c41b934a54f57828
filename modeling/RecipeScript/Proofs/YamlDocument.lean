import RecipeScript.Proofs.YamlLexer
import RecipeScript.Proofs.YamlParser

/-!
# The document in a quiet text

A quiet text need not be empty to YAML, but what it sees there has no known names. The first token is a scalar that
begins with a foreign blank, or marks one as a name. In the second case the document is a mapping; behind each of its
members the depth is what it was before, which is zero, and the last token read is not the beginning of a block. So the
next name is among those that begin with a foreign blank, too.
-/

namespace RecipeScript.Yaml

open Token (Good flowDepth)

/-- A plain scalar without properties that begins with a foreign blank. -/
def Node.IsForeign : Node → Prop
  | .scalar none none .plain (c :: _) => isForeign c = true
  | _ => False

/-- A scalar that begins with a foreign blank, or a mapping in which all names are such scalars. -/
def Node.IsForeignDocument : Node → Prop
  | .mapping _ _ members => ∀ member ∈ members, member.1.IsForeign
  | node => node.IsForeign

theorem Node.IsForeign.exists_text {node : Node} (h : node.IsForeign) :
    ∃ c text, node = .scalar none none .plain (c :: text) ∧ isForeign c = true := by
  unfold Node.IsForeign at h
  split at h
  case h_1 c text => exact ⟨c, text, rfl, h⟩
  case h_2 => exact absurd h id

variable {fuel : Nat} {st st' : ParseState} {token : Token} {rest : List Token}

/-! ## Names -/

/-- A scalar that begins with a foreign blank is a node of its own. -/
theorem takeNode?_foreign {block indentless : Bool} {node : Node} (htokens : st.tokens = token :: rest)
    (htoken : token.IsForeign) (h : takeNode? fuel block indentless st = some (node, st')) :
    node.IsForeign ∧ st' = st.next := by
  obtain ⟨c, text, rfl, hc⟩ := htoken.exists_text
  cases fuel with
  | zero => exact absurd h (by simp [takeNode?])
  | succ fuel =>
      unfold takeNode? ParseState.takeProperties? at h
      rw [htokens] at h
      simp only [Option.bind_eq_bind, Option.bind_some, htokens] at h
      cases h
      exact ⟨hc, rfl⟩

/-- A name that begins with a foreign blank is not left out. -/
theorem takeOptional?_foreign {block indentless : Bool} {ends : List Token} {node : Node}
    (htokens : st.tokens = token :: rest) (htoken : token.IsForeign) (hends : token ∉ ends)
    (h : takeOptional? fuel block indentless ends st = some (node, st')) : node.IsForeign ∧ st' = st.next := by
  cases fuel with
  | zero => exact absurd h (by simp [takeOptional?])
  | succ fuel =>
      unfold takeOptional? at h
      split at h
      case isTrue hat =>
        obtain ⟨other, rest', hother, hmem⟩ := exists_of_isAt hat
        rw [htokens] at hother
        obtain rfl : token = other := (List.cons_eq_cons.mp hother).1
        exact absurd hmem hends
      case isFalse => exact takeNode?_foreign htokens htoken h

/-! ## Outside of brackets and braces -/

/-- Some tokens of a quiet text have been read, the latest first, and what is left stands outside of brackets and
braces. -/
structure Outside (before : List Token) (st : ParseState) : Prop where
  good : Good (st.tokens.reverse ++ before)
  depth_eq : flowDepth before = 0

theorem Outside.next {before : List Token} (h : Outside before st) (htokens : st.tokens = token :: rest)
    (htoken : token.depth 0 = 0) : Outside (token :: before) st.next where
  good := by
    have hgood := h.good
    rw [htokens, List.reverse_cons, List.append_assoc] at hgood
    rw [tokens_next htokens]
    exact hgood
  depth_eq := by
    show token.depth (flowDepth before) = 0
    rw [h.depth_eq]
    exact htoken

/-- What is read leaves the depth as it is, and does not end with the beginning of a block. -/
theorem Outside.reads {before : List Token} (h : Outside before st) (hhead : before.head? ≠ some .blockMappingStart)
    (hreads : Reads 0 st st') : ∃ before', Outside before' st' ∧ before'.head? ≠ some .blockMappingStart := by
  obtain ⟨taken, htaken, hlower, hlast⟩ := hreads
  refine ⟨taken.reverse ++ before, ⟨?_, ?_⟩, fun heq => ?_⟩
  · have hgood := h.good
    rw [htaken, List.reverse_append, List.append_assoc] at hgood
    exact hgood
  · rw [flowDepth_reverse_append, h.depth_eq]
    exact Nat.eq_zero_of_le_zero (hlower 0)
  · rw [List.head?_append, List.head?_reverse] at heq
    rcases Option.or_eq_some_iff.mp heq with hsome | ⟨-, hsome⟩
    · exact hlast hsome
    · exact hhead hsome

/-- A name that does not follow the beginning of its block. -/
theorem Outside.foreign_name {before : List Token} (h : Outside before st)
    (hhead : before.head? ≠ some .blockMappingStart) (htokens : st.tokens = .key :: rest) :
    ∃ name ∈ rest.head?, name.IsForeign := by
  have hnames := h.good.names
  rw [htokens, List.reverse_cons, List.append_assoc] at hnames
  rcases Token.NamesFit.middle hnames h.depth_eq with hstart | ⟨name, hname, hforeign⟩
  · exact absurd hstart hhead
  · rw [List.getLast?_reverse, Option.or_none] at hname
    exact ⟨name, hname, hforeign⟩

/-- The names of a block that stands outside of brackets and braces, given that the first of them begins with a foreign
blank. -/
theorem foreign_takeBlockMembers? {before : List Token} {members : List (Node × Node)} (h : Outside before st)
    (hfirst : ∀ rest, st.tokens = .key :: rest → ∃ name ∈ rest.head?, name.IsForeign)
    (hmembers : takeBlockMembers? fuel st = some (members, st')) : ∀ member ∈ members, member.1.IsForeign := by
  induction fuel generalizing st before members with
  | zero => exact absurd hmembers (by simp [takeBlockMembers?])
  | succ fuel ih =>
      unfold takeBlockMembers? at hmembers
      split at hmembers
      case h_1 rest htokens =>
        obtain ⟨token, hhead, htoken⟩ := hfirst rest htokens
        obtain ⟨rest', rfl⟩ : ∃ rest', rest = token :: rest' := List.head?_eq_some_iff.mp hhead
        simp only [Option.bind_eq_bind, Option.bind_eq_some_iff] at hmembers
        obtain ⟨⟨name, next⟩, hname, hmembers⟩ := hmembers
        obtain ⟨value, last, hvalue, hmembers⟩ := (readers fuel).value hmembers
        simp only [Option.bind_eq_some_iff] at hmembers
        obtain ⟨⟨more, final⟩, hmore, hmembers⟩ := hmembers
        cases hmembers
        have hends : token ∉ [Token.key, .value, .blockEnd] := by
          intro hmem
          simp only [List.mem_cons, List.not_mem_nil, or_false] at hmem
          rcases hmem with rfl | rfl | rfl <;> exact htoken
        have hnext := tokens_next htokens
        obtain ⟨hforeign, rfl⟩ := takeOptional?_foreign hnext htoken hends hname
        have hstart : token ≠ .blockMappingStart := by
          rintro rfl
          exact htoken
        -- behind the name and its value the next name stands outside of brackets and braces as well
        have hmember : Reads 0 st.next last := (reads_neutral hnext htoken.depth_eq hstart).trans hvalue
        obtain ⟨before', hlater, hhead'⟩ := (h.next htokens rfl).reads (by simp) hmember
        have hrest := ih hlater (fun rest hrest => hlater.foreign_name hhead' hrest) hmore
        intro member hmem
        rcases List.mem_cons.mp hmem with rfl | hmem
        · exact hforeign
        · exact hrest member hmem
      case h_2 =>
        cases hmembers
        exact fun member hmember => absurd hmember (by simp)
      case h_3 => exact absurd hmembers (by simp)

/-! ## The document -/

theorem Node.IsForeign.isForeignDocument {node : Node} (h : node.IsForeign) : node.IsForeignDocument := by
  cases node <;> first | exact h | exact absurd h id

/-- What the tokens of a quiet text begin with. -/
theorem Token.Good.exists_first {found : List Token} (h : Good found) (hne : found ≠ []) :
    ∃ first rest, found.reverse = first :: rest ∧
      (first.IsForeign ∨ first = .blockMappingStart ∧ ∃ name more, name.IsForeign ∧ rest = .key :: name :: more) := by
  rcases h.start with hnil | ⟨token, hlast, htoken⟩ | ⟨after, name, hname, rfl⟩
  · exact absurd hnil hne
  · rw [← List.head?_reverse] at hlast
    obtain ⟨rest, hrest⟩ := List.head?_eq_some_iff.mp hlast
    exact ⟨token, rest, hrest, .inl htoken⟩
  · exact ⟨.blockMappingStart, .key :: name :: after.reverse, by simp, .inr ⟨rfl, name, after.reverse, hname, rfl⟩⟩

/-- A block of members is a node without properties. -/
theorem takeNode?_blockMembers {indentless : Bool} {node : Node} (htokens : st.tokens = .blockMappingStart :: rest)
    (h : takeNode? fuel true indentless st = some (node, st')) :
    ∃ less members, takeBlockMembers? less st.next = some (members, st') ∧ node = .mapping none none members := by
  cases fuel with
  | zero => exact absurd h (by simp [takeNode?])
  | succ fuel =>
      unfold takeNode? ParseState.takeProperties? at h
      rw [htokens] at h
      simp only [Option.bind_eq_bind, Option.bind_some, htokens] at h
      split at h
      case isTrue hstart => exact absurd hstart (by simp)
      case isFalse =>
        split at h
        case isTrue =>
          simp only [Option.bind_eq_some_iff] at h
          obtain ⟨⟨members, last⟩, hmembers, h⟩ := h
          cases h
          exact ⟨fuel, members, hmembers, rfl⟩
        case isFalse hstart => exact absurd (by simp) hstart

/-- A document whose tokens may come from a quiet text. -/
theorem isForeignDocument_takeNode? {found : List Token} {node : Node} (hgood : Good found)
    (htokens : st.tokens = found.reverse) (hne : found ≠ [])
    (h : takeNode? fuel true false st = some (node, st')) : node.IsForeignDocument := by
  obtain ⟨first, rest, hreverse, hfirst⟩ := hgood.exists_first hne
  rw [hreverse] at htokens
  rcases hfirst with hforeign | ⟨rfl, name, more, hname, rfl⟩
  · exact (takeNode?_foreign htokens hforeign h).1.isForeignDocument
  · obtain ⟨less, members, hmembers, rfl⟩ := takeNode?_blockMembers htokens h
    have houtside : Outside [] st := by
      refine ⟨?_, rfl⟩
      rw [htokens, ← hreverse, List.reverse_reverse, List.append_nil]
      exact hgood
    refine foreign_takeBlockMembers? (houtside.next htokens rfl) (fun rest hrest => ?_) hmembers
    rw [tokens_next htokens] at hrest
    obtain rfl := (List.cons_eq_cons.mp hrest).2
    exact ⟨name, rfl, hname⟩

theorem takeDirectives?_of_not {seen : Bool} {handles : List (List UInt8 × List UInt8)}
    (h : ¬token.IsDirective) :
    takeDirectives? seen handles (token :: rest) = some (handles ++ defaultHandles, token :: rest) := by
  cases token <;> first | rfl | exact absurd trivial h

theorem takeDocument?_of_ne (htokens : st.tokens = token :: rest) (hstart : token ≠ .documentStart) :
    takeDocument? false st = takeNode? (4 * st.tokens.length + 4) true false st := by
  unfold takeDocument?
  split
  case h_1 tokens hdocument =>
    rw [htokens] at hdocument
    exact absurd (List.cons_eq_cons.mp hdocument).1 hstart
  case h_2 => rfl

/-- **The document in a quiet text.** It is a scalar that begins with a foreign blank, or a mapping in which all names
do, if there is any. -/
theorem Node.isForeignDocument_of_ofText? {text : String} {node : Node} (h : HasQuietLines text.toList)
    (hnode : Node.ofText? text = some (some node)) : node.IsForeignDocument := by
  unfold Node.ofText? at hnode
  simp only [Option.bind_eq_bind, Option.bind_eq_some_iff] at hnode
  obtain ⟨tokens, htokens, hnode⟩ := hnode
  obtain ⟨found, rfl, hgood⟩ := Token.exists_good_of_ofText? h htokens
  split at hnode
  case isTrue => exact absurd hnode (by simp)
  case isFalse hempty =>
    have hne : found ≠ [] := by
      rintro rfl
      exact hempty rfl
    obtain ⟨first, rest, hreverse, hfirst⟩ := hgood.exists_first hne
    have hdirective : ¬first.IsDirective ∧ first ≠ .documentStart := by
      rcases hfirst with hforeign | ⟨rfl, -⟩
      · cases first <;> first | exact absurd hforeign id | exact ⟨id, by simp⟩
      · exact ⟨id, by simp⟩
    rw [hreverse, takeDirectives?_of_not hdirective.1] at hnode
    simp only [Option.bind_some, ne_eq, not_true_eq_false, decide_false, Option.bind_eq_some_iff] at hnode
    obtain ⟨⟨document, last⟩, hdocument, hnode⟩ := hnode
    rw [takeDocument?_of_ne rfl hdirective.2] at hdocument
    have hforeign := isForeignDocument_takeNode? hgood hreverse.symm hne hdocument
    split at hnode
    · cases hnode
      exact hforeign
    · exact absurd hnode (by simp)

end RecipeScript.Yaml
