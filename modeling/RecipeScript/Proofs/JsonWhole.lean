import RecipeScript.Json.Reader

/-!
# What is closed is whole

Where reading stops inside a value, all that is around the place is left unclosed. So a value that is closed on the
outside was read to its end: the lists and objects in it are closed too, and no fault is among them (`IsWhole`). Whoever
looks into such a value meets no broken one, however deep it is and whatever spelling the text has.

The readers call each other with one less of fuel. What each of them reads is shown from what the calls read, and an
induction on the fuel puts this together (`readWhole`).
-/

namespace RecipeScript.Json

/-- The values in which reading stopped nowhere. -/
inductive IsWhole : Json → Prop
  | null : IsWhole null
  | bool (value : Bool) : IsWhole (bool value)
  | number (numeral : Numeral) : IsWhole (number numeral)
  | string (pieces : List StringPiece) : IsWhole (string pieces)
  | array {items : List Json} (hitems : ∀ item ∈ items, item.IsWhole) : IsWhole (array items true)
  | object {members : List (List StringPiece × Json)} (hmembers : ∀ member ∈ members, member.2.IsWhole) :
      IsWhole (object members true)

section Whole

variable {fuel : Nat} {text rest : List Char} {value : Json} {items : List Json}
  {members : List (List StringPiece × Json)} {closed : Bool}

theorem IsWhole.isBroken_eq_false (h : value.IsWhole) : value.isBroken = false := by
  cases h <;> rfl

theorem IsWhole.of_mem (h : (Json.object members closed).IsWhole) : ∀ member ∈ members, member.2.IsWhole := by
  cases h with
  | object hmembers => exact hmembers

theorem IsWhole.isBroken_of_mem (h : (Json.object members closed).IsWhole) :
    ∀ member ∈ members, member.2.isBroken = false :=
  fun member hmember => (h.of_mem member hmember).isBroken_eq_false

/-! ## One call -/

theorem isWhole_of_takePlain (h : takePlain text = (value, rest)) (hvalue : value.isBroken = false) :
    value.IsWhole := by
  unfold takePlain at h
  split at h
  · cases h
    exact .null
  · cases h
    exact .bool true
  · cases h
    exact .bool false
  · split at h
    · cases h
      exact .number _
    · cases h
      cases hvalue

/-- What the readers with some fuel read is whole: a value if it is not broken, and items and members if they are read up
to what closes them. -/
structure ReadWhole (fuel : Nat) : Prop where
  value : ∀ {text value rest}, readValue fuel text = (value, rest) → value.isBroken = false → value.IsWhole
  items : ∀ {text items rest}, readItems fuel text = (items, true, rest) → ∀ item ∈ items, item.IsWhole
  members : ∀ {text members rest}, readMembers fuel text = (members, true, rest) →
    ∀ member ∈ members, member.2.IsWhole

theorem readWhole_zero : ReadWhole 0 := by
  constructor
  case value =>
    intro text value rest h hvalue
    rw [readValue] at h
    cases h
    cases hvalue
  case items =>
    intro text items rest h
    rw [readItems] at h
    cases h
  case members =>
    intro text members rest h
    rw [readMembers] at h
    cases h

theorem ReadWhole.value_succ (hfuel : ReadWhole fuel) (h : readValue (fuel + 1) text = (value, rest))
    (hvalue : value.isBroken = false) : value.IsWhole := by
  rw [readValue] at h
  split at h
  case h_1 =>
    split at h
    · cases h
      exact .string _
    · cases h
      cases hvalue
  case h_2 =>
    split at h
    · cases h
      exact .array (List.forall_mem_nil _)
    · split at h
      rename_i items closed after hread
      cases h
      obtain rfl : closed = true := by simpa [isBroken] using hvalue
      exact .array (hfuel.items hread)
  case h_3 =>
    split at h
    · cases h
      exact .object (List.forall_mem_nil _)
    · split at h
      rename_i members closed after hread
      cases h
      obtain rfl : closed = true := by simpa [isBroken] using hvalue
      exact .object (hfuel.members hread)
  case h_4 => exact isWhole_of_takePlain h hvalue

theorem ReadWhole.items_succ (hfuel : ReadWhole fuel) (h : readItems (fuel + 1) text = (items, true, rest)) :
    ∀ item ∈ items, item.IsWhole := by
  rw [readItems] at h
  split at h
  rename_i item after hread
  split at h
  case isTrue => cases h
  case isFalse hbroken =>
    have hitem : item.IsWhole := hfuel.value hread (Bool.eq_false_iff.mpr hbroken)
    split at h
    -- a comma, a closing bracket, or neither
    · split at h
      rename_i later closed beyond hlater
      cases h
      exact List.forall_mem_cons.mpr ⟨hitem, hfuel.items hlater⟩
    · cases h
      exact List.forall_mem_singleton.mpr hitem
    · cases h

theorem ReadWhole.members_succ (hfuel : ReadWhole fuel) (h : readMembers (fuel + 1) text = (members, true, rest)) :
    ∀ member ∈ members, member.2.IsWhole := by
  rw [readMembers] at h
  split at h
  case h_2 => cases h
  case h_1 =>
    split at h
    case h_1 => cases h
    case h_2 name after hname =>
      split at h
      case h_2 => cases h
      case h_1 =>
        split at h
        rename_i value behind hread
        split at h
        case isTrue => cases h
        case isFalse hbroken =>
          have hvalue : value.IsWhole := hfuel.value hread (Bool.eq_false_iff.mpr hbroken)
          split at h
          -- a comma, a closing brace, or neither
          · split at h
            rename_i later closed beyond hlater
            cases h
            exact List.forall_mem_cons.mpr ⟨hvalue, hfuel.members hlater⟩
          · cases h
            exact List.forall_mem_singleton.mpr hvalue
          · cases h

/-! ## All calls -/

theorem readWhole (fuel : Nat) : ReadWhole fuel := by
  induction fuel with
  | zero => exact readWhole_zero
  | succ fuel ih => exact ⟨ih.value_succ, ih.items_succ, ih.members_succ⟩

/-- **What is read and not broken is whole.** -/
theorem isWhole_of_read {text : String} {complete : Bool} (h : read text = (value, complete))
    (hvalue : value.isBroken = false) : value.IsWhole := by
  unfold read at h
  dsimp only at h
  cases h
  exact (readWhole _).value rfl hvalue

end Whole

end RecipeScript.Json
