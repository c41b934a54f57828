import RecipeScript.Json.Decode
import RecipeScript.Proofs.Digits

/-!
# What values and objects say

What a JSON value says is put in its own words here (`SaysText`, `SaysNat`, `SaysWord`), and each decoder of
plain values gives exactly what its value says. Of an object it is asked whether a name occurs in it exactly
once (`Once`), under whatever spelling, and what the value there says. Neither the order of the members nor
members of other names have a part in that (`Once.of_perm`).
-/

namespace RecipeScript.Json

/-! ## What a value says -/

section Values

variable {α β : Type} {pieces : List StringPiece} {value : Json}

/-- One decision after the other: both have to come out right. -/
theorem bind_eq_ok_iff {x : Decoded α} {f : α → Decoded β} {b : β} :
    (x >>= f) = .ok b ↔ ∃ a, x = .ok a ∧ f a = .ok b := by
  constructor
  · intro h
    cases x with
    | error e => cases h
    | ok a => exact ⟨a, rfl, h⟩
  · intro h
    obtain ⟨a, rfl, ha⟩ := h
    exact ha

theorem ok_bind (a : α) (f : α → Decoded β) : (Except.ok a >>= f) = f a := rfl

/-- A string with the given text. -/
def SaysText (text : String) (value : Json) : Prop :=
  ∃ pieces, value = string pieces ∧ textOfPieces? pieces = some text.toList

/-- A number below 2⁶⁴ that is written as an integer, with neither sign nor fraction nor exponent: `-0`, `1.0` and
`1e0` are floating-point numbers. -/
def SaysNat (n : Nat) (value : Json) : Prop :=
  ∃ numeral, value = number numeral ∧ numeral.negative = false ∧ numeral.fraction = [] ∧
    numeral.exponent = [] ∧ decimalValue numeral.whole = n ∧ n < Nat.pow 2 64

/-- A word inside another object, as a string or as the name of the one member of an object, whose value then says
nothing. -/
def SaysWord [Vocabulary α] (a : α) (value : Json) : Prop :=
  SaysText (Vocabulary.name a) value ∨
    ∃ name inner closed, value = object [(name, inner)] closed ∧
      textOfPieces? name = some (Vocabulary.name a).toList ∧ inner.isNothing = true

theorem textOf_eq_ok_iff {text : String} :
    textOf pieces = .ok text ↔ textOfPieces? pieces = some text.toList := by
  unfold textOf
  cases textOfPieces? pieces with
  | none => simp
  | some cs => rw [Except.ok.injEq, Option.some.injEq, ← String.toList_inj, String.toList_ofList]

theorem decodeText_eq_ok_iff {text : String} : decodeText value = .ok text ↔ SaysText text value := by
  constructor
  · intro h
    unfold decodeText at h
    split at h
    · rename_i pieces
      exact ⟨pieces, rfl, textOf_eq_ok_iff.mp h⟩
    · cases h
  · intro h
    obtain ⟨pieces, rfl, htext⟩ := h
    exact textOf_eq_ok_iff.mpr htext

theorem natural?_eq_some_iff {numeral : Numeral} {n : Nat} : numeral.natural? = some n ↔
    numeral.negative = false ∧ numeral.fraction = [] ∧ numeral.exponent = [] ∧
      decimalValue numeral.whole = n ∧ n < Nat.pow 2 64 := by
  unfold Numeral.natural? Numeral.isInteger
  constructor
  · intro h
    split at h
    · rename_i hall
      simp only [Bool.and_eq_true, Bool.not_eq_true', List.isEmpty_iff, decide_eq_true_eq] at hall
      obtain ⟨⟨hnegative, hfraction, hexponent⟩, hlt⟩ := hall
      cases h
      exact ⟨hnegative, hfraction, hexponent, rfl, hlt⟩
    · cases h
  · intro h
    obtain ⟨hnegative, hfraction, hexponent, rfl, hlt⟩ := h
    rw [if_pos]
    simp only [hnegative, hfraction, hexponent, hlt, List.isEmpty_nil, Bool.not_false, Bool.and_self,
      decide_true]

theorem decodeNat_eq_ok_iff {n : Nat} : decodeNat value = .ok n ↔ SaysNat n value := by
  constructor
  · intro h
    unfold decodeNat at h
    split at h
    · rename_i numeral
      split at h
      · rename_i hnatural
        cases h
        exact ⟨numeral, rfl, natural?_eq_some_iff.mp hnatural⟩
      · cases h
    · cases h
  · intro h
    obtain ⟨numeral, rfl, hn⟩ := h
    rw [decodeNat, natural?_eq_some_iff.mpr hn]

theorem saysText_ofText (text : String) : SaysText text (ofText text) :=
  ⟨piecesOfText text.toList, rfl, textOfPieces?_piecesOfText text.toList⟩

theorem decodeText_ofText (text : String) : decodeText (ofText text) = .ok text :=
  decodeText_eq_ok_iff.mpr (saysText_ofText text)

theorem decodeBool_bool (b : Bool) : decodeBool (bool b) = .ok b :=
  rfl

theorem saysNat_ofNat {n : Nat} (h : n < Nat.pow 2 64) : SaysNat n (ofNat n) :=
  ⟨Numeral.ofNat n, rfl, rfl, rfl, rfl, decimalValue_toDigits n, h⟩

section Words

variable [Vocabulary α] {a : α}

theorem lookUp_eq_ok_iff {word : String} : lookUp word = .ok a ↔ word = Vocabulary.name a := by
  rw [← Vocabulary.ofName?_eq_some_iff]
  unfold lookUp
  cases (Vocabulary.ofName? word : Option α) <;> simp

/-- The word that a text spells, if it spells one. -/
theorem lookUp_textOf_eq_ok_iff : (textOf pieces >>= lookUp) = .ok a ↔
    textOfPieces? pieces = some (Vocabulary.name a).toList := by
  rw [bind_eq_ok_iff]
  constructor
  · intro h
    obtain ⟨word, htext, hword⟩ := h
    rw [lookUp_eq_ok_iff] at hword
    rw [← hword]
    exact textOf_eq_ok_iff.mp htext
  · intro h
    exact ⟨Vocabulary.name a, textOf_eq_ok_iff.mpr h, lookUp_eq_ok_iff.mpr rfl⟩

/-- **A word that was held is decoded exactly if the value says it.** -/
theorem decodeHeldWord_eq_ok_iff : decodeHeldWord value = .ok a ↔ SaysWord a value := by
  constructor
  · intro h
    unfold decodeHeldWord at h
    split at h
    · rename_i pieces
      exact Or.inl ⟨pieces, rfl, lookUp_textOf_eq_ok_iff.mp h⟩
    · rename_i name inner closed
      rw [← bind_assoc, bind_eq_ok_iff] at h
      obtain ⟨b, hname, hinner⟩ := h
      split at hinner
      · rename_i hnothing
        cases hinner
        exact Or.inr ⟨name, inner, closed, rfl, lookUp_textOf_eq_ok_iff.mp hname, hnothing⟩
      · cases hinner
    · cases h
    · cases h
  · intro h
    rcases h with ⟨pieces, rfl, htext⟩ | ⟨name, inner, closed, rfl, hname, hnothing⟩
    · exact lookUp_textOf_eq_ok_iff.mpr htext
    · have hword : (textOf name >>= lookUp) = .ok a := lookUp_textOf_eq_ok_iff.mpr hname
      rw [decodeHeldWord, ← bind_assoc, hword]
      exact if_pos hnothing

end Words

end Values

/-! ## Members -/

section Members

variable {name field : String} {member : List StringPiece × Json} {members : List (List StringPiece × Json)}

/-- Whether a member has the given name. -/
def IsNamed (name : String) (member : List StringPiece × Json) : Prop :=
  textOfPieces? member.1 = some name.toList

instance (name : String) : DecidablePred (IsNamed name) := fun member =>
  inferInstanceAs (Decidable (textOfPieces? member.1 = some name.toList))

/-- The values of all members of one name, in the order of the text. -/
def valuesOf (name : String) (members : List (List StringPiece × Json)) : List Json :=
  (members.filter fun member => IsNamed name member).map Prod.snd

/-- A name occurs exactly once, and the value there is one of those asked for. -/
def Once (name : String) (P : Json → Prop) (members : List (List StringPiece × Json)) : Prop :=
  ∃ value, valuesOf name members = [value] ∧ P value

/-- The members of all other names. -/
def othersOf (name : String) (members : List (List StringPiece × Json)) : List (List StringPiece × Json) :=
  members.filter fun member => ¬ IsNamed name member

theorem valuesOf_cons_of_named (h : IsNamed name member) :
    valuesOf name (member :: members) = member.2 :: valuesOf name members := by
  unfold valuesOf
  rw [List.filter_cons_of_pos (by simpa using h), List.map_cons]

theorem valuesOf_cons_of_not (h : ¬ IsNamed name member) :
    valuesOf name (member :: members) = valuesOf name members := by
  unfold valuesOf
  rw [List.filter_cons_of_neg (by simpa using h)]

theorem valuesOf_append (name : String) (members others : List (List StringPiece × Json)) :
    valuesOf name (members ++ others) = valuesOf name members ++ valuesOf name others := by
  rw [valuesOf, List.filter_append, List.map_append]
  rfl

theorem valuesOf_eq_nil (h : ∀ member ∈ members, ¬ IsNamed name member) : valuesOf name members = [] := by
  rw [valuesOf, List.filter_eq_nil_iff.mpr fun member hmember => by simpa using h member hmember]
  rfl

theorem othersOf_cons_of_named (h : IsNamed name member) :
    othersOf name (member :: members) = othersOf name members := by
  unfold othersOf
  rw [List.filter_cons_of_neg (by simpa using h)]

theorem othersOf_cons_of_not (h : ¬ IsNamed name member) :
    othersOf name (member :: members) = member :: othersOf name members := by
  unfold othersOf
  rw [List.filter_cons_of_pos (by simpa using h)]

theorem IsNamed.unique (h : IsNamed name member) (hfield : IsNamed field member) : name = field := by
  unfold IsNamed at h hfield
  rw [h, Option.some.injEq] at hfield
  exact String.toList_inj.mp hfield

theorem exists_textOf {pieces : List StringPiece} (h : (textOfPieces? pieces).isSome = true) :
    ∃ text, textOf pieces = .ok text := by
  obtain ⟨cs, hcs⟩ := Option.isSome_iff_exists.mp h
  exact ⟨String.ofList cs, by rw [textOf, hcs]⟩

theorem isNamed_iff {text : String} (h : textOf member.1 = .ok text) : IsNamed field member ↔ text = field := by
  rw [textOf_eq_ok_iff] at h
  rw [IsNamed, h, Option.some.injEq, String.toList_inj]

/-- Leaving out one name does not touch the values of another. -/
theorem valuesOf_othersOf (hne : name ≠ field) : valuesOf name (othersOf field members) = valuesOf name members := by
  induction members with
  | nil => rfl
  | cons member members ih =>
      by_cases hfield : IsNamed field member
      · have hname : ¬ IsNamed name member := fun h => hne (h.unique hfield)
        rw [othersOf_cons_of_named hfield, valuesOf_cons_of_not hname, ih]
      · rw [othersOf_cons_of_not hfield]
        by_cases hname : IsNamed name member
        · rw [valuesOf_cons_of_named hname, valuesOf_cons_of_named hname, ih]
        · rw [valuesOf_cons_of_not hname, valuesOf_cons_of_not hname, ih]

theorem once_othersOf_iff {P : Json → Prop} (hne : name ≠ field) :
    Once name P (othersOf field members) ↔ Once name P members := by
  unfold Once
  rw [valuesOf_othersOf hne]

/-- The members of any of some names. -/
def membersNamed (names : List String) (members : List (List StringPiece × Json)) :
    List (List StringPiece × Json) :=
  members.filter fun member => ∃ name ∈ names, IsNamed name member

theorem valuesOf_membersNamed {names : List String} (h : name ∈ names) :
    valuesOf name (membersNamed names members) = valuesOf name members := by
  unfold valuesOf membersNamed
  rw [List.filter_filter]
  refine congrArg _ (List.filter_congr fun member _ => ?_)
  by_cases hname : IsNamed name member
  · have hany : ∃ name ∈ names, IsNamed name member := ⟨name, h, hname⟩
    simp only [hname, hany, decide_true, Bool.and_self]
  · simp only [hname, decide_false, Bool.false_and]

/-- What is asked of one field does not hang on the order of the members, nor on members of other names. -/
theorem Once.of_perm {P : Json → Prop} {names : List String} {others : List (List StringPiece × Json)}
    (h : Once name P members) (hname : name ∈ names)
    (hperm : (membersNamed names others).Perm (membersNamed names members)) : Once name P others := by
  obtain ⟨value, hvalues, hvalue⟩ := h
  -- a list with one element has no other order
  have hsame : (valuesOf name (membersNamed names others)).Perm (valuesOf name (membersNamed names members)) :=
    (hperm.filter _).map _
  rw [valuesOf_membersNamed hname, valuesOf_membersNamed hname, hvalues] at hsame
  exact ⟨value, List.perm_singleton.mp hsame, hvalue⟩

/-- Members with their names as they are written. -/
def writtenMembers (members : List (String × Json)) : List (List StringPiece × Json) :=
  members.map fun (name, value) => (piecesOfText name.toList, value)

theorem isNamed_written {written : String} {value : Json} :
    IsNamed name (piecesOfText written.toList, value) ↔ written = name := by
  rw [IsNamed, textOfPieces?_piecesOfText, Option.some.injEq, String.toList_inj]

theorem valuesOf_writtenMembers (name : String) (members : List (String × Json)) :
    valuesOf name (writtenMembers members) = (members.filter fun member => member.1 = name).map Prod.snd := by
  induction members with
  | nil => rfl
  | cons member members ih =>
      obtain ⟨written, value⟩ := member
      show valuesOf name ((piecesOfText written.toList, value) :: writtenMembers members) = _
      by_cases h : written = name
      · rw [valuesOf_cons_of_named (isNamed_written.mpr h), List.filter_cons_of_pos (by simpa using h), ih]
        rfl
      · rw [valuesOf_cons_of_not (fun hnamed => h (isNamed_written.mp hnamed)),
          List.filter_cons_of_neg (by simpa using h), ih]

/-- A field that is written once is found once. -/
theorem once_writtenMembers {P : Json → Prop} {members : List (String × Json)} {value : Json}
    (hvalues : (members.filter fun member => member.1 = name).map Prod.snd = [value]) (h : P value) :
    Once name P (writtenMembers members) :=
  ⟨value, by rw [valuesOf_writtenMembers, hvalues], h⟩

end Members

/-! ## Whole texts -/

section Texts

variable {α : Type} {decode : Json → Decoded α} {text : String}

/-- Decoding a whole text that holds one value and nothing else. -/
theorem decodeWhole_of_read {value : Json} (h : read text = (value, true)) :
    decodeWhole decode text = decode value := by
  unfold decodeWhole
  rw [h]
  cases hvalue : decode value with
  | error e => simp only [hvalue, bind, Except.bind]
  | ok a => simp only [hvalue, bind, Except.bind, if_true, pure, Except.pure]

/-- What is decoded from a whole text is decoded from the value there. -/
theorem decode_of_decodeWhole {a : α} (h : decodeWhole decode text = .ok a) : decode (read text).1 = .ok a := by
  rcases hread : read text with ⟨value, complete⟩
  rw [decodeWhole, hread] at h
  obtain ⟨b, hb, h⟩ := bind_eq_ok_iff.mp h
  cases complete with
  | false => cases h
  | true =>
      cases h
      exact hb

end Texts

end RecipeScript.Json
