import RecipeScript.Proofs.YamlQuiet

/-!
# Marked names

In the tokens of a quiet text, the names of members that stand outside of brackets and braces are not arbitrary. The
name of a member either begins a block of its own, or it stands first on its line, and then it begins with a foreign
blank. This is what `Token.NamesFit` says of the tokens read so far, of which the latest comes first. `Token.Good` adds
that the first name, or whatever else comes first, begins with a foreign blank in any case.

The token that marks a name is put in front of it after the fact, so both have to survive that (`NamesFit.replace`).
-/

namespace RecipeScript.Yaml

namespace Token

/-- The depth of brackets and braces after a token. There need not be one for the token to close. -/
def depth (n : Nat) : Token → Nat
  | .flowSequenceStart | .flowMappingStart => n + 1
  | .flowSequenceEnd | .flowMappingEnd => n - 1
  | _ => n

/-- The depth of brackets and braces after some tokens. -/
def flowDepth : List Token → Nat
  | [] => 0
  | token :: before => token.depth (flowDepth before)

/-- A plain scalar that begins with a foreign blank. -/
def IsForeign : Token → Prop
  | .scalar .plain (c :: _) => isForeign c = true
  | _ => False

/-- A name that is marked outside of brackets and braces begins a block, or with a foreign blank. What comes after the
last token may be given. -/
def NamesFit (next : Option Token) : List Token → Prop
  | [] => True
  | token :: before =>
    (token = .key → flowDepth before = 0 →
      before.head? = some .blockMappingStart ∨ ∃ name ∈ next, name.IsForeign) ∧ NamesFit (some token) before

/-- What comes first begins with a foreign blank, the tokens that mark it as a name apart. -/
def StartsForeign (tokens : List Token) : Prop :=
  tokens = [] ∨ (∃ token ∈ tokens.getLast?, token.IsForeign) ∨
    ∃ after name, name.IsForeign ∧ tokens = after ++ [name, .key, .blockMappingStart]

/-- The tokens may come from a quiet text. -/
structure Good (tokens : List Token) : Prop where
  names : NamesFit none tokens
  start : StartsForeign tokens

/-- A token that marks no name, and neither opens nor closes brackets or braces. -/
def IsNeutral (token : Token) : Prop :=
  token ≠ .key ∧ ∀ n, token.depth n = n

variable {tokens after before : List Token} {next : Option Token} {token : Token}

theorem IsForeign.exists_text (h : token.IsForeign) :
    ∃ c text, token = .scalar .plain (c :: text) ∧ isForeign c = true := by
  unfold IsForeign at h
  split at h
  case h_1 c text => exact ⟨c, text, rfl, h⟩
  case h_2 => exact absurd h id

theorem IsForeign.ne_key (h : token.IsForeign) : token ≠ .key := by
  intro heq
  rw [heq] at h
  exact h

theorem IsForeign.depth_eq (h : token.IsForeign) (n : Nat) : token.depth n = n := by
  cases token <;> first | rfl | exact absurd h id

theorem isNeutral_of_isDirective (h : token.IsDirective) : token.IsNeutral := by
  cases token <;> first | exact absurd h id | exact ⟨by simp, fun _ => rfl⟩

theorem good_nil : Good [] :=
  ⟨trivial, .inl rfl⟩

/-! ## Names -/

theorem NamesFit.of_none (h : NamesFit none tokens) (next : Option Token) : NamesFit next tokens := by
  cases tokens with
  | nil => trivial
  | cons token before =>
      refine ⟨fun hkey hdepth => ?_, h.2⟩
      rcases h.1 hkey hdepth with hstart | ⟨name, hname, -⟩
      · exact .inl hstart
      · exact absurd hname (by simp)

theorem NamesFit.cons (h : NamesFit none before) (hkey : token ≠ .key) : NamesFit none (token :: before) :=
  ⟨fun heq => absurd heq hkey, h.of_none _⟩

theorem flowDepth_append_congr {before' : List Token} (h : flowDepth before' = flowDepth before) :
    flowDepth (after ++ before') = flowDepth (after ++ before) := by
  induction after with
  | nil => exact h
  | cons token after ih =>
      show token.depth (flowDepth (after ++ before')) = token.depth (flowDepth (after ++ before))
      rw [ih]

/-- What comes before a token can be replaced, if that token does not mark a name and the depth stays the same. -/
theorem NamesFit.replace {before' : List Token} (h : NamesFit next (after ++ token :: before))
    (hkey : token ≠ .key) (hdepth : flowDepth before' = flowDepth before)
    (hbefore : NamesFit (some token) before') : NamesFit next (after ++ token :: before') := by
  induction after generalizing next with
  | nil => exact ⟨fun heq => absurd heq hkey, hbefore⟩
  | cons last after ih =>
      have hhead : (after ++ token :: before').head? = (after ++ token :: before).head? := by
        cases after <;> rfl
      have hsame : flowDepth (after ++ token :: before') = flowDepth (after ++ token :: before) :=
        flowDepth_append_congr (congrArg token.depth hdepth)
      show NamesFit next (last :: (after ++ token :: before'))
      refine ⟨fun heq hzero => ?_, ih h.2⟩
      rw [hhead]
      exact h.1 heq (hsame ▸ hzero)

/-- A name among the tokens is one that fits. -/
theorem NamesFit.middle (h : NamesFit next (after ++ .key :: before)) (hdepth : flowDepth before = 0) :
    before.head? = some .blockMappingStart ∨ ∃ name ∈ after.getLast?.or next, name.IsForeign := by
  induction after generalizing next with
  | nil => exact h.1 rfl hdepth
  | cons last after ih =>
      rcases ih h.2 with hstart | ⟨name, hname, hforeign⟩
      · exact .inl hstart
      · refine .inr ⟨name, ?_, hforeign⟩
        cases after with
        | nil => exact hname
        | cons other after => simpa [List.getLast?_cons] using hname

/-! ## The start -/

theorem StartsForeign.append (h : StartsForeign before) (hne : before ≠ []) (after : List Token) :
    StartsForeign (after ++ before) := by
  rcases h with hnil | ⟨token, hlast, hforeign⟩ | ⟨front, name, hforeign, rfl⟩
  · exact absurd hnil hne
  · exact .inr (.inl ⟨token, by rw [List.getLast?_append_of_ne_nil _ hne]; exact hlast, hforeign⟩)
  · exact .inr (.inr ⟨after ++ front, name, hforeign, (List.append_assoc _ _ _).symm⟩)

theorem Good.cons (h : Good before) (hne : before ≠ []) (hkey : token ≠ .key) : Good (token :: before) :=
  ⟨h.names.cons hkey, h.start.append hne [token]⟩

theorem Good.cons_foreign (h : Good before) (hforeign : token.IsForeign) : Good (token :: before) := by
  refine ⟨h.names.cons hforeign.ne_key, ?_⟩
  cases before with
  | nil => exact .inr (.inl ⟨token, rfl, hforeign⟩)
  | cons last before => exact h.start.append (List.cons_ne_nil _ _) [token]

/-- The mark of a name that begins a block. -/
theorem Good.cons_key (h : Good before) (hne : before ≠ []) : Good (.key :: .blockMappingStart :: before) := by
  have hblock : Good (.blockMappingStart :: before) := h.cons hne (by simp)
  exact ⟨⟨fun _ _ => .inl rfl, hblock.names.of_none _⟩, hblock.start.append (List.cons_ne_nil _ _) [.key]⟩

/-- The mark of a name inside brackets or braces. -/
theorem Good.cons_key_of_depth (h : Good before) (hdepth : flowDepth before ≠ 0) : Good (.key :: before) := by
  have hne : before ≠ [] := by
    rintro rfl
    exact hdepth rfl
  exact ⟨⟨fun _ hzero => absurd hzero hdepth, h.names.of_none _⟩, h.start.append hne [.key]⟩

/-! ## Marks put after the fact -/

/-- A mark can be put in front of a name that begins a block of its own. -/
theorem Good.mark_block (h : Good (after ++ token :: before)) (hbefore : Good before) (hkey : token ≠ .key)
    (hstart : before = [] → token.IsForeign) : Good (after ++ token :: .key :: .blockMappingStart :: before) := by
  refine ⟨h.names.replace hkey rfl ⟨fun _ _ => .inl rfl, ⟨by simp, hbefore.names.of_none _⟩⟩, ?_⟩
  cases before with
  | nil => exact .inr (.inr ⟨after, token, hstart rfl, rfl⟩)
  | cons last before =>
      have hstart' := hbefore.start.append (List.cons_ne_nil _ _) (after ++ [token, .key, .blockMappingStart])
      simpa using hstart'

/-- A mark can be put in front of a name that begins with a foreign blank, or stands inside brackets or braces. -/
theorem Good.mark (h : Good (after ++ token :: before)) (hbefore : Good before) (hkey : token ≠ .key)
    (hne : before ≠ []) (hname : flowDepth before = 0 → token.IsForeign) :
    Good (after ++ token :: .key :: before) := by
  refine ⟨h.names.replace hkey rfl ⟨fun _ hzero => .inr ⟨token, rfl, hname hzero⟩, hbefore.names.of_none _⟩, ?_⟩
  have hstart := hbefore.start.append hne (after ++ [token, .key])
  simpa using hstart

end Token

end RecipeScript.Yaml
