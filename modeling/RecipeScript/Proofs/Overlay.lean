import RecipeScript.Proofs.JsonMembers
import RecipeScript.Settings.Json

/-!
# Reading over defaults

A record is read by laying the members of an object over its defaults. Two things are said about this for any
record, given by a list of its fields.

What was written for a record can be edited: members can be taken out and put into another order, and members
of unknown names can be added (`IsEdit`). Such an object is read as the record with the fields that were kept,
and the defaults everywhere else (`readRecord_of_isEdit`). The invariant is on the way: when the fields of some
names have been met, the record has these of the fields that were written, and the kept ones that were not met
are still to come (`Awaits`).

In an object that is read at all, no known name occurs twice (`valuesOf_of_readMembers_ok`).
-/

namespace RecipeScript.Field

open Json

variable {ρ : Type} {fields : List (Field ρ)} {field : Field ρ} {written : List (String × Json)}
  {keep : (String → Bool) → ρ} {keeps : String → Bool} {met : List String} {record result : ρ} {name : String}
  {value : Json} {member : List StringPiece × Json} {members : List (List StringPiece × Json)}

/-! ## Member by member -/

/-- What becomes of one member, if all can be read: one of an unknown name is skipped, and one of a known name is read
unless the name was met before. -/
theorem readMembers_cons_eq_ok_iff : readMembers fields met record (member :: members) = .ok result ↔
    ∃ name, textOf member.1 = .ok name ∧ match fields.find? (·.name = name) with
      | none => member.2.isBroken = false ∧ readMembers fields met record members = .ok result
      | some field => name ∉ met ∧ ∃ next, field.read member.2 record = .ok next
          ∧ readMembers fields (name :: met) next members = .ok result := by
  rw [readMembers, bind_eq_ok_iff]
  refine exists_congr fun name => and_congr_right fun _ => ?_
  cases fields.find? (·.name = name) with
  | none => cases member.2.isBroken <;> simp [throw, throwThe, MonadExceptOf.throw]
  | some field =>
      by_cases hmet : name ∈ met
      · simp [hmet, throw, throwThe, MonadExceptOf.throw, bind, Except.bind]
      · simp only [hmet, if_false, not_false_eq_true, true_and, ← bind_eq_ok_iff]

theorem find?_name_eq_some (h : fields.find? (·.name = name) = some field) : field ∈ fields ∧ field.name = name :=
  ⟨List.mem_of_find?_eq_some h, by simpa using List.find?_some h⟩

theorem find?_name_eq_none_iff : fields.find? (·.name = name) = none ↔ name ∉ fields.map (·.name) := by
  simp [List.find?_eq_none]

/-! ## What is still to come -/

/-- A field that is put in its place when its value can be decoded. -/
theorem put_of_decode {α : Type} {decoded : Decoded α} {a : α} (h : decoded = .ok a) (put : α → ρ) :
    (do return put (← decoded)) = Except.ok (put a) := by
  rw [h]
  rfl

/-- What is written for a record says its fields, one by one. Here `keep` gives the record that has only some of them,
and the defaults for the rest. -/
structure SaysFields (fields : List (Field ρ)) (written : List (String × Json)) (keep : (String → Bool) → ρ)
    (keeps : String → Bool) : Prop where
  names : written.map Prod.fst = fields.map (·.name)
  nodup : (written.map Prod.fst).Nodup
  /-- Reading what is written for one of the fields that are kept adds this one to those the record has. -/
  read : ∀ field ∈ fields, keeps field.name = true → ∀ value, (field.name, value) ∈ written → ∀ others,
    field.read value (keep others) = .ok (keep fun name => name = field.name || others name)
  /-- Names of no field do not count. -/
  congr : ∀ keeps others, (∀ name ∈ written.map Prod.fst, keeps name = others name) → keep keeps = keep others

theorem SaysFields.exists_value (h : SaysFields fields written keep keeps) (hfield : field ∈ fields) :
    ∃ value, (field.name, value) ∈ written := by
  have hname : field.name ∈ written.map Prod.fst := by
    rw [h.names]
    exact List.mem_map_of_mem hfield
  obtain ⟨⟨_, value⟩, hvalue, rfl⟩ := List.mem_map.mp hname
  exact ⟨value, hvalue⟩

/-- Of what was written, the members still to come are those that were kept and not met before. -/
def Awaits (written : List (String × Json)) (keeps : String → Bool) (met : List String)
    (members : List (List StringPiece × Json)) : Prop :=
  ∀ name value, (name, value) ∈ written →
    valuesOf name members = if keeps name = true ∧ name ∉ met then [value] else []

theorem Awaits.of_unknown (h : Awaits written keeps met (member :: members))
    (hunknown : ∀ name ∈ written.map Prod.fst, ¬ IsNamed name member) : Awaits written keeps met members := by
  intro name value hvalue
  rw [← h name value hvalue, valuesOf_cons_of_not (hunknown name (List.mem_map_of_mem hvalue))]

/-- The member of a known name that comes is the one that was written. -/
theorem Awaits.eq_of_named (h : Awaits written keeps met (member :: members)) (hname : IsNamed name member)
    (hvalue : (name, value) ∈ written) : keeps name = true ∧ name ∉ met ∧ member.2 = value := by
  have hvalues := h name value hvalue
  rw [valuesOf_cons_of_named hname] at hvalues
  split at hvalues
  · rename_i hawaited
    exact ⟨hawaited.1, hawaited.2, (List.cons.inj hvalues).1⟩
  · cases hvalues

/-- After it, this name is not awaited any more. -/
theorem Awaits.of_named (h : Awaits written keeps met (member :: members)) (hname : IsNamed name member) :
    Awaits written keeps (name :: met) members := by
  intro other value hvalue
  have hvalues := h other value hvalue
  by_cases heq : other = name
  · subst heq
    obtain ⟨hkept, hmet, -⟩ := h.eq_of_named hname hvalue
    rw [valuesOf_cons_of_named hname, if_pos ⟨hkept, hmet⟩] at hvalues
    rw [if_neg fun hawaited => hawaited.2 List.mem_cons_self]
    exact (List.cons.inj hvalues).2
  · rw [valuesOf_cons_of_not fun hother => heq (hother.unique hname)] at hvalues
    rw [hvalues]
    simp only [List.mem_cons, heq, false_or]

/-- When nothing is to come any more, all that was kept has been met. -/
theorem Awaits.keeps_of_nil (h : Awaits written keeps met []) (hmet : ∀ name ∈ met, keeps name = true)
    (hname : name ∈ written.map Prod.fst) : decide (name ∈ met) = keeps name := by
  obtain ⟨⟨name, value⟩, hvalue, rfl⟩ := List.mem_map.mp hname
  dsimp only
  by_cases hin : name ∈ met
  · rw [hmet name hin, decide_eq_true hin]
  · have hvalues := h name value hvalue
    have hkept : keeps name ≠ true := fun hkept => by
      rw [if_pos ⟨hkept, hin⟩] at hvalues
      cases hvalues
    rw [decide_eq_false hin, Bool.eq_false_iff.mpr hkept]

/-- **Reading over defaults.** On the way the record has the fields met so far, and the defaults for all others. -/
theorem readMembers_of_awaits (hfields : SaysFields fields written keep keeps)
    (hreadable : ∀ member ∈ members, (textOfPieces? member.1).isSome = true ∧ member.2.isBroken = false)
    (hmet : ∀ name ∈ met, keeps name = true) (h : Awaits written keeps met members) :
    readMembers fields met (keep fun name => name ∈ met) members = .ok (keep keeps) := by
  induction members generalizing met with
  | nil =>
      rw [readMembers, hfields.congr _ keeps fun name hname => h.keeps_of_nil hmet hname]
  | cons member members ih =>
      obtain ⟨hmember, hmembers⟩ := List.forall_mem_cons.mp hreadable
      obtain ⟨name, hname⟩ := exists_textOf hmember.1
      refine readMembers_cons_eq_ok_iff.mpr ⟨name, hname, ?_⟩
      cases hfind : fields.find? (·.name = name) with
      | none =>
          have hunknown : name ∉ written.map Prod.fst := by
            rw [hfields.names]
            exact find?_name_eq_none_iff.mp hfind
          refine ⟨hmember.2, ih hmembers hmet (h.of_unknown fun known hknown hnamed => hunknown ?_)⟩
          rw [(isNamed_iff hname).mp hnamed]
          exact hknown
      | some field =>
          obtain ⟨hfield, rfl⟩ := find?_name_eq_some hfind
          have hnamed : IsNamed field.name member := (isNamed_iff hname).mpr rfl
          obtain ⟨value, hvalue⟩ := hfields.exists_value hfield
          obtain ⟨hkept, hnew, rfl⟩ := h.eq_of_named hnamed hvalue
          refine ⟨hnew, _, hfields.read field hfield hkept _ hvalue _, ?_⟩
          have hrest := ih hmembers (List.forall_mem_cons.mpr ⟨hkept, hmet⟩) (h.of_named hnamed)
          simpa only [List.mem_cons, Bool.decide_or] using hrest

/-! ## Edited objects -/

/-- The members of an object are some of those that were written, with others of unknown names, in any order. -/
def IsEdit (written : List (String × Json)) (keeps : String → Bool) (members : List (List StringPiece × Json)) : Prop :=
  ∃ added, (∀ member ∈ added, ∃ name, textOf member.1 = .ok name ∧ name ∉ written.map Prod.fst)
    ∧ members.Perm (writtenMembers (written.filter fun member => keeps member.1) ++ added)

/-- What was written under a name is what stands there. -/
theorem filter_name_of_nodup (hnodup : (written.map Prod.fst).Nodup) (hvalue : (name, value) ∈ written) :
    written.filter (fun member => member.1 = name) = [(name, value)] := by
  induction written with
  | nil => cases hvalue
  | cons member written ih =>
      obtain ⟨hnot, hnodup⟩ := List.nodup_cons.mp hnodup
      rcases List.mem_cons.mp hvalue with rfl | hin
      · rw [List.filter_cons_of_pos (by simp), List.filter_eq_nil_iff.mpr]
        intro other hother
        have hne : other.1 ≠ name := fun heq => hnot (List.mem_map.mpr ⟨other, hother, heq⟩)
        simpa using hne
      · have hne : member.1 ≠ name := fun heq => hnot (List.mem_map.mpr ⟨_, hin, heq.symm⟩)
        rw [List.filter_cons_of_neg (by simpa using hne), ih hnodup hin]

theorem IsEdit.awaits (h : IsEdit written keeps members) (hnodup : (written.map Prod.fst).Nodup) :
    Awaits written keeps [] members := by
  obtain ⟨added, hadded, hperm⟩ := h
  intro name value hvalue
  have hunknown : ∀ member ∈ added, ¬ IsNamed name member := by
    intro member hmember hnamed
    obtain ⟨other, hother, hnot⟩ := hadded member hmember
    rw [(isNamed_iff hother).mp hnamed] at hnot
    exact hnot (List.mem_map_of_mem hvalue)
  have hvalues : valuesOf name (writtenMembers (written.filter fun member => keeps member.1) ++ added)
      = if keeps name = true then [value] else [] := by
    rw [valuesOf_append, valuesOf_eq_nil hunknown, List.append_nil, valuesOf_writtenMembers, List.filter_filter]
    simp only [Bool.and_comm]
    rw [← List.filter_filter, filter_name_of_nodup hnodup hvalue]
    cases hkept : keeps name <;> simp [hkept]
  have hsame : (valuesOf name members).Perm (if keeps name = true then [value] else []) :=
    hvalues ▸ (hperm.filter _).map _
  simp only [List.not_mem_nil, not_false_eq_true, and_true]
  split
  · rename_i hkept
    rw [if_pos hkept] at hsame
    exact List.perm_singleton.mp hsame
  · rename_i hkept
    rw [if_neg hkept] at hsame
    exact List.perm_nil.mp hsame

theorem IsEdit.isSome_name (h : IsEdit written keeps members) :
    ∀ member ∈ members, (textOfPieces? member.1).isSome = true := by
  obtain ⟨added, hadded, hperm⟩ := h
  intro member hmember
  rcases List.mem_append.mp (hperm.mem_iff.mp hmember) with hkept | hnew
  · obtain ⟨⟨name, value⟩, -, rfl⟩ := List.mem_map.mp hkept
    dsimp only
    rw [textOfPieces?_piecesOfText]
    rfl
  · obtain ⟨name, hname, -⟩ := hadded member hnew
    rw [textOf_eq_ok_iff.mp hname]
    rfl

theorem IsEdit.mem (h : IsEdit written keeps members) (hvalue : (name, value) ∈ written) (hkept : keeps name = true) :
    (piecesOfText name.toList, value) ∈ members := by
  obtain ⟨added, -, hperm⟩ := h
  have hfiltered : (name, value) ∈ written.filter fun member => keeps member.1 :=
    List.mem_filter.mpr ⟨hvalue, hkept⟩
  exact hperm.mem_iff.mpr (List.mem_append_left added (List.mem_map.mpr ⟨_, hfiltered, rfl⟩))

/-- An edit whose names are all written as names are. -/
theorem isEdit_of_perm (added : List (String × Json)) {edited : List (String × Json)}
    (hadded : ∀ member ∈ added, member.1 ∉ written.map Prod.fst)
    (hperm : edited.Perm (written.filter (fun member => keeps member.1) ++ added)) :
    IsEdit written keeps (writtenMembers edited) := by
  refine ⟨writtenMembers added, ?_, ?_⟩
  · intro member hmember
    obtain ⟨⟨name, value⟩, hin, rfl⟩ := List.mem_map.mp hmember
    exact ⟨name, textOf_eq_ok_iff.mpr (textOfPieces?_piecesOfText _), hadded _ hin⟩
  · have hwritten := hperm.map fun member : String × Json => (piecesOfText member.1.toList, member.2)
    rwa [List.map_append] at hwritten

/-- What was written is one of its own edits. -/
theorem isEdit_self (h : ∀ name ∈ written.map Prod.fst, keeps name = true) :
    IsEdit written keeps (writtenMembers written) := by
  have hall : written.filter (fun member => keeps member.1) = written :=
    List.filter_eq_self.mpr fun member hmember => h member.1 (List.mem_map_of_mem hmember)
  refine isEdit_of_perm [] (List.forall_mem_nil _) ?_
  rw [hall, List.append_nil]

/-- **An edited object is read as what was kept, over the defaults.** -/
theorem readRecord_of_isEdit (hfields : SaysFields fields written keep keeps) (h : IsEdit written keeps members)
    (hwhole : ∀ member ∈ members, member.2.isBroken = false) :
    readRecord fields (keep fun _ => false) (.object members true) = .ok (keep keeps) := by
  have hmembers := readMembers_of_awaits hfields
    (fun member hmember => ⟨h.isSome_name member hmember, hwhole member hmember⟩) (List.forall_mem_nil _)
    (h.awaits hfields.nodup)
  simp only [List.not_mem_nil, decide_false] at hmembers
  rw [readRecord, hmembers]
  rfl

/-! ## Repeated members -/

/-- Some of the names stands there more than once. -/
def Repeats (names : List String) (members : List (List StringPiece × Json)) : Prop :=
  ∃ name ∈ names, 1 < (valuesOf name members).length

/-- If all members can be read, a known name has one value at most, and none if it was met before. -/
theorem valuesOf_of_readMembers_ok (h : readMembers fields met record members = .ok result)
    (hfind : fields.find? (·.name = name) = some field) :
    valuesOf name members = [] ∨ name ∉ met ∧ ∃ value, valuesOf name members = [value]
      ∧ ∃ before after, field.read value before = .ok after := by
  induction members generalizing met record with
  | nil => exact Or.inl rfl
  | cons member members ih =>
      obtain ⟨other, hother, hrest⟩ := readMembers_cons_eq_ok_iff.mp h
      by_cases heq : other = name
      · subst heq
        rw [hfind] at hrest
        obtain ⟨hmet, next, hread, hrest⟩ := hrest
        have hnone : valuesOf other members = [] := by
          rcases ih hrest with hnil | ⟨hnew, -⟩
          · exact hnil
          · exact absurd List.mem_cons_self hnew
        rw [valuesOf_cons_of_named ((isNamed_iff hother).mpr rfl), hnone]
        exact Or.inr ⟨hmet, member.2, rfl, record, next, hread⟩
      · rw [valuesOf_cons_of_not fun hnamed => heq ((isNamed_iff hother).mp hnamed)]
        cases hfound : fields.find? (·.name = other) with
        | none =>
            rw [hfound] at hrest
            exact ih hrest.2
        | some _ =>
            rw [hfound] at hrest
            obtain ⟨-, next, -, hrest⟩ := hrest
            exact (ih hrest).imp_right fun hvalue => ⟨fun hmet => hvalue.1 (List.mem_cons_of_mem other hmet), hvalue.2⟩

section Records

variable {defaults : ρ} {closed : Bool}

theorem readMembers_of_readRecord_ok (h : readRecord fields defaults (.object members closed) = .ok result) :
    ∃ final, readMembers fields [] defaults members = .ok final := by
  obtain ⟨final, hmembers, -⟩ := bind_eq_ok_iff.mp h
  exact ⟨final, hmembers⟩

/-- **A record is not read from members that repeat a field.** -/
theorem not_repeats_of_readRecord_ok (h : readRecord fields defaults (.object members closed) = .ok result) :
    ¬ Repeats (fields.map (·.name)) members := by
  intro hrepeats
  obtain ⟨name, hname, hlength⟩ := hrepeats
  obtain ⟨final, hmembers⟩ := readMembers_of_readRecord_ok h
  cases hfind : fields.find? (·.name = name) with
  | none => exact find?_name_eq_none_iff.mp hfind hname
  | some field =>
      rcases valuesOf_of_readMembers_ok hmembers hfind with hnil | ⟨-, value, hvalue, -⟩
      · rw [hnil] at hlength
        cases hlength
      · rw [hvalue] at hlength
        exact absurd hlength (Nat.lt_irrefl 1)

/-- The value that stands for a field is one that can be read. -/
theorem exists_read_of_readRecord_ok (h : readRecord fields defaults (.object members closed) = .ok result)
    (hfind : fields.find? (·.name = name) = some field) (hvalue : value ∈ valuesOf name members) :
    ∃ before after, field.read value before = .ok after := by
  obtain ⟨final, hmembers⟩ := readMembers_of_readRecord_ok h
  rcases valuesOf_of_readMembers_ok hmembers hfind with hnil | ⟨-, only, honly, hread⟩
  · rw [hnil] at hvalue
    cases hvalue
  · rw [honly, List.mem_singleton] at hvalue
    subst hvalue
    exact hread

/-- Nor is it read if a record inside repeats a field. -/
theorem not_repeats_of_field {σ : Type} {innerFields : List (Field σ)} {innerDefaults : σ} {put : ρ → σ → ρ}
    {inner : List (List StringPiece × Json)} {innerClosed : Bool}
    (h : readRecord fields defaults (.object members closed) = .ok result)
    (hfind : fields.find? (·.name = name)
      = some ⟨name, fun value r => return put r (← readRecord innerFields innerDefaults value)⟩)
    (hvalue : .object inner innerClosed ∈ valuesOf name members) : ¬ Repeats (innerFields.map (·.name)) inner := by
  obtain ⟨_, _, hread⟩ := exists_read_of_readRecord_ok h hfind hvalue
  obtain ⟨_, hinner, -⟩ := bind_eq_ok_iff.mp hread
  exact not_repeats_of_readRecord_ok hinner

end Records

end RecipeScript.Field
