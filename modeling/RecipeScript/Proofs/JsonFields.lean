import RecipeScript.Proofs.JsonMembers

/-!
# Finding the fields of a record

Decoders meet the members of an object one at a time, and keep a place for each field that they look for.
`Filled` is what a whole walk does to such a place. A walk in passing looks for one field and holds all other
members (`takeMember_eq_ok_iff`); a walk over what was held fills several places side by side
(`foldlM_eq_ok_iff`). Either way, a field is found exactly if its name occurs once and its value can be decoded.
-/

namespace RecipeScript.Json

/-! ## The place of a field -/

section Filling

variable {α : Type} {field : String} {decode : Json → Decoded α} {place found : Option α}
variable {member : List StringPiece × Json} {members : List (List StringPiece × Json)}

/-- What a walk over members does to the place of a field. If no member has its name, the place stays as
it is; if one has, the place was free and takes what is decoded there; more than one is too many. -/
def Filled (field : String) (decode : Json → Decoded α) (place : Option α)
    (members : List (List StringPiece × Json)) (found : Option α) : Prop :=
  (valuesOf field members = [] ∧ found = place) ∨
    (place = none ∧ ∃ a, Once field (fun value => decode value = .ok a) members ∧ found = some a)

theorem filled_nil_iff : Filled field decode place [] found ↔ found = place := by
  constructor
  · intro h
    rcases h with ⟨-, hfound⟩ | ⟨-, a, ⟨value, hvalue, -⟩, -⟩
    · exact hfound
    · cases hvalue
  · intro h
    exact Or.inl ⟨rfl, h⟩

theorem filled_cons_of_not (h : ¬ IsNamed field member) :
    Filled field decode place (member :: members) found ↔ Filled field decode place members found := by
  unfold Filled Once
  rw [valuesOf_cons_of_not h]

theorem filled_cons_of_named (h : IsNamed field member) :
    Filled field decode place (member :: members) found ↔
      place = none ∧ ∃ a, decode member.2 = .ok a ∧ Filled field decode (some a) members found := by
  unfold Filled Once
  rw [valuesOf_cons_of_named h]
  constructor
  · intro hfilled
    rcases hfilled with ⟨hnil, -⟩ | ⟨hplace, a, ⟨value, hvalue, ha⟩, hfound⟩
    · cases hnil
    · obtain ⟨rfl, hrest⟩ := List.cons.inj hvalue
      exact ⟨hplace, a, ha, Or.inl ⟨hrest, hfound⟩⟩
  · intro hfilled
    obtain ⟨hplace, a, ha, ⟨hrest, hfound⟩ | ⟨habsurd, -⟩⟩ := hfilled
    · exact Or.inr ⟨hplace, a, ⟨member.2, by rw [hrest], ha⟩, hfound⟩
    · cases habsurd

/-- A place that was free is filled exactly if the field occurs once. -/
theorem filled_none_some_iff {a : α} : Filled field decode none members (some a) ↔
    Once field (fun value => decode value = .ok a) members := by
  constructor
  · intro h
    rcases h with ⟨-, habsurd⟩ | ⟨-, b, honce, hb⟩
    · cases habsurd
    · rw [Option.some.inj hb]
      exact honce
  · intro h
    exact Or.inr ⟨rfl, a, h, rfl⟩

theorem demand_eq_ok_iff {a : α} : demand field place = .ok a ↔ place = some a := by
  cases place with
  | none => exact ⟨(nomatch ·), (nomatch ·)⟩
  | some b => rw [demand, Except.ok.injEq, Option.some.injEq]

/-! ## Walking over members in passing -/

theorem takeMember_cons_of_not {met : Bool} (hname : (textOfPieces? member.1).isSome = true)
    (h : ¬ IsNamed field member) (hsound : member.2.isSound heldDepth = true) :
    takeMember field decode met (member :: members) =
      (do let (found, held) ← takeMember field decode met members
          return (found, member :: held)) := by
  obtain ⟨pieces, value⟩ := member
  obtain ⟨text, htext⟩ := exists_textOf hname
  have hne : text ≠ field := fun heq => h ((isNamed_iff htext).mpr heq)
  dsimp only at htext hsound
  rw [takeMember, htext, ok_bind, if_neg hne, hold, if_pos hsound]
  rfl

theorem takeMember_cons_of_named {met : Bool} (h : IsNamed field member) :
    takeMember field decode met (member :: members) =
      if met then .error (.duplicateField field)
      else do
        let a ← decode member.2
        let (_, held) ← takeMember field decode true members
        return (some a, held) := by
  obtain ⟨pieces, value⟩ := member
  have htext : textOf pieces = .ok field := textOf_eq_ok_iff.mpr h
  rw [takeMember, htext, ok_bind, if_pos rfl]
  cases met with
  | true => rfl
  | false => rfl

/-- Members that can be taken in: every name has a text, and the values of all names but one are sound. -/
def AreReadable (field : String) (members : List (List StringPiece × Json)) : Prop :=
  ∀ member ∈ members, (textOfPieces? member.1).isSome = true ∧
    (¬ IsNamed field member → member.2.isSound heldDepth = true)

theorem AreReadable.tail (h : AreReadable field (member :: members)) : AreReadable field members :=
  fun other hother => h other (List.mem_cons_of_mem member hother)

theorem mem_othersOf_iff : member ∈ othersOf field members ↔ member ∈ members ∧ ¬ IsNamed field member := by
  unfold othersOf
  rw [List.mem_filter, decide_eq_true_eq]

/-- What has been held is sound. -/
theorem AreReadable.othersOf (h : AreReadable field members) (other : String) :
    AreReadable other (othersOf field members) := by
  intro member hmember
  obtain ⟨hmem, hnot⟩ := mem_othersOf_iff.mp hmember
  obtain ⟨hname, hsound⟩ := h member hmem
  exact ⟨hname, fun _ => hsound hnot⟩

theorem areSoundMembers_iff {depth : Nat} : areSoundMembers depth members = true ↔
    ∀ member ∈ members, (textOfPieces? member.1).isSome = true ∧ member.2.isSound depth = true := by
  induction members with
  | nil => simp [areSoundMembers]
  | cons member members ih =>
      rw [areSoundMembers, Bool.and_eq_true, Bool.and_eq_true, ih, List.forall_mem_cons]

theorem areReadable_of_sound (h : areSoundMembers heldDepth members = true) : AreReadable field members :=
  fun member hmember =>
    ⟨(areSoundMembers_iff.mp h member hmember).1, fun _ => (areSoundMembers_iff.mp h member hmember).2⟩

theorem areReadable_writtenMembers {members : List (String × Json)}
    (h : ∀ member ∈ members, member.1 ≠ field → member.2.isSound heldDepth = true) :
    AreReadable field (writtenMembers members) := by
  intro member hmember
  obtain ⟨named, hnamed, rfl⟩ := List.mem_map.mp hmember
  refine ⟨by rw [textOfPieces?_piecesOfText, Option.isSome_some], fun hnot => ?_⟩
  exact h named hnamed fun heq => hnot (isNamed_written.mpr heq)

/-- Once a member has been met, none of its name may follow. -/
theorem takeMember_met_eq_ok_iff {held : List (List StringPiece × Json)} (h : AreReadable field members) :
    takeMember field decode true members = .ok (found, held) ↔
      valuesOf field members = [] ∧ found = none ∧ held = othersOf field members := by
  induction members generalizing held with
  | nil =>
      constructor
      · intro hok
        cases hok
        exact ⟨rfl, rfl, rfl⟩
      · intro hall
        obtain ⟨-, rfl, rfl⟩ := hall
        rfl
  | cons member members ih =>
      by_cases hnamed : IsNamed field member
      · rw [takeMember_cons_of_named hnamed, if_pos rfl, valuesOf_cons_of_named hnamed]
        constructor
        · intro hok
          cases hok
        · intro hall
          cases hall.1
      · obtain ⟨hname, hsound⟩ := h member List.mem_cons_self
        rw [takeMember_cons_of_not hname hnamed (hsound hnamed), bind_eq_ok_iff,
          valuesOf_cons_of_not hnamed, othersOf_cons_of_not hnamed]
        constructor
        · intro hok
          obtain ⟨⟨found', held'⟩, hrest, hpure⟩ := hok
          cases hpure
          obtain ⟨hnil, hfound, rfl⟩ := (ih h.tail).mp hrest
          exact ⟨hnil, hfound, rfl⟩
        · intro hall
          obtain ⟨hnil, rfl, rfl⟩ := hall
          exact ⟨(none, othersOf field members), (ih h.tail).mpr ⟨hnil, rfl, rfl⟩, rfl⟩

/-- **Walking over members in passing** fills the place of the field and holds all others. -/
theorem takeMember_eq_ok_iff {held : List (List StringPiece × Json)} (h : AreReadable field members) :
    takeMember field decode false members = .ok (found, held) ↔
      Filled field decode none members found ∧ held = othersOf field members := by
  induction members generalizing held with
  | nil =>
      rw [filled_nil_iff]
      constructor
      · intro hok
        cases hok
        exact ⟨rfl, rfl⟩
      · intro hall
        obtain ⟨rfl, rfl⟩ := hall
        rfl
  | cons member members ih =>
      by_cases hnamed : IsNamed field member
      -- this is the one member of the field, and from here on none may follow
      · rw [takeMember_cons_of_named hnamed, if_neg Bool.false_ne_true, bind_eq_ok_iff,
          filled_cons_of_named hnamed, othersOf_cons_of_named hnamed]
        constructor
        · intro hok
          obtain ⟨a, ha, hrest⟩ := hok
          obtain ⟨⟨found', held'⟩, hmet, hpure⟩ := bind_eq_ok_iff.mp hrest
          cases hpure
          obtain ⟨hnil, -, rfl⟩ := (takeMember_met_eq_ok_iff h.tail).mp hmet
          exact ⟨⟨rfl, a, ha, Or.inl ⟨hnil, rfl⟩⟩, rfl⟩
        · intro hall
          obtain ⟨⟨-, a, ha, ⟨hnil, rfl⟩ | ⟨habsurd, -⟩⟩, rfl⟩ := hall
          · have hmet : takeMember field decode true members = .ok (none, othersOf field members) :=
              (takeMember_met_eq_ok_iff h.tail).mpr ⟨hnil, rfl, rfl⟩
            exact ⟨a, ha, bind_eq_ok_iff.mpr ⟨_, hmet, rfl⟩⟩
          · cases habsurd
      · obtain ⟨hname, hsound⟩ := h member List.mem_cons_self
        rw [takeMember_cons_of_not hname hnamed (hsound hnamed), bind_eq_ok_iff,
          filled_cons_of_not hnamed, othersOf_cons_of_not hnamed]
        constructor
        · intro hok
          obtain ⟨⟨found', held'⟩, hrest, hpure⟩ := hok
          cases hpure
          obtain ⟨hfilled, rfl⟩ := (ih h.tail).mp hrest
          exact ⟨hfilled, rfl⟩
        · intro hall
          obtain ⟨hfilled, rfl⟩ := hall
          exact ⟨(found, othersOf field members), (ih h.tail).mpr ⟨hfilled, rfl⟩, rfl⟩

/-- A field is found exactly if it occurs once and its value can be decoded. -/
theorem takeMember_demand_eq_ok_iff {β : Type} {b : β} (h : AreReadable field members)
    (rest : α → List (List StringPiece × Json) → Decoded β) :
    (do let (found, held) ← takeMember field decode false members
        let a ← demand field found
        rest a held) = .ok b ↔
      ∃ a, Once field (fun value => decode value = .ok a) members ∧ rest a (othersOf field members) = .ok b := by
  rw [bind_eq_ok_iff]
  constructor
  · intro hok
    obtain ⟨⟨found, held⟩, htake, hrest⟩ := hok
    obtain ⟨hfilled, rfl⟩ := (takeMember_eq_ok_iff h).mp htake
    cases found with
    | none => cases hrest
    | some a => exact ⟨a, filled_none_some_iff.mp hfilled, hrest⟩
  · intro hall
    obtain ⟨a, honce, hrest⟩ := hall
    exact ⟨(some a, othersOf field members),
      (takeMember_eq_ok_iff h).mpr ⟨filled_none_some_iff.mpr honce, rfl⟩, hrest⟩

theorem hold_eq_ok_iff {value other : Json} : hold value = .ok other ↔
    other = value ∧ value.isSound heldDepth = true := by
  unfold hold
  split
  · rename_i hsound
    rw [Except.ok.injEq, eq_comm, and_iff_left hsound]
  · rename_i hsound
    exact ⟨(nomatch ·), fun h => absurd h.2 hsound⟩

/-- Members that were walked over in passing could be taken in. -/
theorem areReadable_of_takeMember {met : Bool} {held : List (List StringPiece × Json)}
    (h : takeMember field decode met members = .ok (found, held)) : AreReadable field members := by
  induction members generalizing met found held with
  | nil => exact fun member hmember => absurd hmember List.not_mem_nil
  | cons member members ih =>
      obtain ⟨name, value⟩ := member
      rw [takeMember] at h
      obtain ⟨text, htext, h⟩ := bind_eq_ok_iff.mp h
      have hname : (textOfPieces? name).isSome = true := by
        rw [textOf_eq_ok_iff.mp htext, Option.isSome_some]
      have hnamed : IsNamed field (name, value) ↔ text = field := isNamed_iff htext
      split at h
      · rename_i hfield
        cases met with
        | true => cases h
        | false =>
            obtain ⟨a, -, h⟩ := bind_eq_ok_iff.mp h
            obtain ⟨⟨_, _⟩, hrest, -⟩ := bind_eq_ok_iff.mp h
            exact List.forall_mem_cons.mpr ⟨⟨hname, fun hnot => absurd (hnamed.mpr hfield) hnot⟩, ih hrest⟩
      · obtain ⟨_, hhold, h⟩ := bind_eq_ok_iff.mp h
        obtain ⟨⟨_, _⟩, hrest, -⟩ := bind_eq_ok_iff.mp h
        exact List.forall_mem_cons.mpr ⟨⟨hname, fun _ => (hold_eq_ok_iff.mp hhold).2⟩, ih hrest⟩

/-! ## Walking over members that were held -/

/-- What one member does to the place of a field. -/
def putIn (field : String) (decode : Json → Decoded α) (place : Option α)
    (member : List StringPiece × Json) : Decoded (Option α) :=
  if IsNamed field member then fill field place (decode member.2) else .ok place

theorem filled_cons_iff : Filled field decode place (member :: members) found ↔
    ∃ next, putIn field decode place member = .ok next ∧ Filled field decode next members found := by
  unfold putIn
  by_cases hnamed : IsNamed field member
  · rw [filled_cons_of_named hnamed, if_pos hnamed]
    cases place with
    | some a =>
        constructor
        · intro h
          cases h.1
        · intro h
          obtain ⟨next, habsurd, -⟩ := h
          cases habsurd
    | none =>
        constructor
        · intro h
          obtain ⟨-, a, ha, hrest⟩ := h
          exact ⟨some a, by rw [ha]; rfl, hrest⟩
        · intro h
          obtain ⟨next, hnext, hrest⟩ := h
          cases ha : decode member.2 with
          | error e =>
              rw [ha] at hnext
              cases hnext
          | ok a =>
              rw [ha] at hnext
              cases hnext
              exact ⟨rfl, a, rfl, hrest⟩
  · rw [filled_cons_of_not hnamed, if_neg hnamed]
    constructor
    · intro h
      exact ⟨place, rfl, h⟩
    · intro h
      obtain ⟨next, hnext, hrest⟩ := h
      cases hnext
      exact hrest

section Slots

variable {σ ι β γ : Type} {put : σ → List StringPiece × Json → Decoded σ} {finish : σ → Decoded ι}
variable {mk : Option α → Option β → Option γ → σ} {build : α → β → γ → ι}
variable {second third : String} {decodeSecond : Json → Decoded β} {decodeThird : Json → Decoded γ}

/-- Three places that are filled side by side, member by member. -/
theorem foldlM_eq_ok_iff
    (hput : ∀ a b c, ∀ member ∈ members, put (mk a b c) member = (do
      let a ← putIn field decode a member
      let b ← putIn second decodeSecond b member
      let c ← putIn third decodeThird c member
      return mk a b c)) (a : Option α) (b : Option β) (c : Option γ) (s : σ) :
    members.foldlM put (mk a b c) = .ok s ↔ ∃ a' b' c', Filled field decode a members a' ∧
      Filled second decodeSecond b members b' ∧ Filled third decodeThird c members c' ∧ s = mk a' b' c' := by
  induction members generalizing a b c with
  | nil =>
      constructor
      · intro h
        cases h
        exact ⟨a, b, c, filled_nil_iff.mpr rfl, filled_nil_iff.mpr rfl, filled_nil_iff.mpr rfl, rfl⟩
      · intro h
        obtain ⟨a', b', c', ha, hb, hc, rfl⟩ := h
        rw [filled_nil_iff.mp ha, filled_nil_iff.mp hb, filled_nil_iff.mp hc]
        rfl
  | cons member members ih =>
      -- the member may have been refused by any of the three places, so all three decide about the step
      have ih := ih fun a b c other hother => hput a b c other (List.mem_cons_of_mem member hother)
      rw [List.foldlM_cons, hput a b c member List.mem_cons_self, bind_eq_ok_iff]
      constructor
      · intro h
        obtain ⟨next, hnext, hrest⟩ := h
        obtain ⟨a₁, ha, hnext⟩ := bind_eq_ok_iff.mp hnext
        obtain ⟨b₁, hb, hnext⟩ := bind_eq_ok_iff.mp hnext
        obtain ⟨c₁, hc, hnext⟩ := bind_eq_ok_iff.mp hnext
        cases hnext
        obtain ⟨a', b', c', ha', hb', hc', rfl⟩ := (ih a₁ b₁ c₁).mp hrest
        exact ⟨a', b', c', filled_cons_iff.mpr ⟨a₁, ha, ha'⟩, filled_cons_iff.mpr ⟨b₁, hb, hb'⟩,
          filled_cons_iff.mpr ⟨c₁, hc, hc'⟩, rfl⟩
      · intro h
        obtain ⟨a', b', c', ha', hb', hc', rfl⟩ := h
        obtain ⟨a₁, ha, ha'⟩ := filled_cons_iff.mp ha'
        obtain ⟨b₁, hb, hb'⟩ := filled_cons_iff.mp hb'
        obtain ⟨c₁, hc, hc'⟩ := filled_cons_iff.mp hc'
        refine ⟨mk a₁ b₁ c₁, ?_, (ih a₁ b₁ c₁).mpr ⟨a', b', c', ha', hb', hc', rfl⟩⟩
        exact bind_eq_ok_iff.mpr ⟨a₁, ha, bind_eq_ok_iff.mpr ⟨b₁, hb, bind_eq_ok_iff.mpr ⟨c₁, hc, rfl⟩⟩⟩

/-- **A record of three fields is found exactly if each of them occurs once** and its value can be decoded. -/
theorem foldlM_demand_eq_ok_iff {i : ι}
    (hput : ∀ a b c, ∀ member ∈ members, put (mk a b c) member = (do
      let a ← putIn field decode a member
      let b ← putIn second decodeSecond b member
      let c ← putIn third decodeThird c member
      return mk a b c))
    (hfinish : ∀ a b c, finish (mk a b c) =
      (do return build (← demand field a) (← demand second b) (← demand third c))) :
    (members.foldlM put (mk none none none) >>= finish) = .ok i ↔
      ∃ a b c, i = build a b c ∧ Once field (fun value => decode value = .ok a) members ∧
        Once second (fun value => decodeSecond value = .ok b) members ∧
        Once third (fun value => decodeThird value = .ok c) members := by
  rw [bind_eq_ok_iff]
  constructor
  · intro h
    obtain ⟨s, hfold, h⟩ := h
    obtain ⟨a', b', c', ha, hb, hc, rfl⟩ := (foldlM_eq_ok_iff hput none none none s).mp hfold
    rw [hfinish] at h
    obtain ⟨a, hdemand, h⟩ := bind_eq_ok_iff.mp h
    rw [demand_eq_ok_iff.mp hdemand] at ha
    obtain ⟨b, hdemand, h⟩ := bind_eq_ok_iff.mp h
    rw [demand_eq_ok_iff.mp hdemand] at hb
    obtain ⟨c, hdemand, h⟩ := bind_eq_ok_iff.mp h
    rw [demand_eq_ok_iff.mp hdemand] at hc
    cases h
    exact ⟨a, b, c, rfl, filled_none_some_iff.mp ha, filled_none_some_iff.mp hb, filled_none_some_iff.mp hc⟩
  · intro h
    obtain ⟨a, b, c, rfl, ha, hb, hc⟩ := h
    refine ⟨mk (some a) (some b) (some c), (foldlM_eq_ok_iff hput none none none _).mpr ?_, ?_⟩
    · exact ⟨some a, some b, some c, filled_none_some_iff.mpr ha, filled_none_some_iff.mpr hb,
        filled_none_some_iff.mpr hc, rfl⟩
    · rw [hfinish]
      rfl

end Slots

end Filling

end RecipeScript.Json
