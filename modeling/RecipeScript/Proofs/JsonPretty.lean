import RecipeScript.Proofs.JsonLayout

/-!
# JSON over lines is read back

The layout over lines differs from the one on one line in its blanks only: every item and every member stands on
a line of its own, and a colon has a blank behind it. So it lays the same value out, at whatever depth it starts
(`IsPrintable.lays_pretty`), and is read as that value.
-/

namespace RecipeScript.Json

theorem gap_newLine (depth : Nat) : Gap (newLine depth) := by
  intro c hc
  rcases List.mem_cons.mp hc with rfl | hc
  · decide
  · rw [(List.mem_replicate.mp hc).2]
    decide

theorem gap_blank : Gap [' '] := by
  intro c hc
  rw [List.mem_singleton.mp hc]
  decide

/-- Items over lines are a new line and then a layout of the items, in front of any blanks and the closing
bracket. -/
theorem exists_laysItems_pretty {depth : Nat} {items : List Json} {after : List Char} (hne : items ≠ [])
    (h : ∀ item ∈ items, Lays (item.pretty depth) item) (hafter : Gap after) :
    ∃ text, prettyItems depth items = newLine depth ++ text ∧ LaysItems (text ++ (after ++ [']'])) items := by
  induction items with
  | nil => exact absurd rfl hne
  | cons item items ih =>
      have hitem := h item List.mem_cons_self
      cases items with
      | nil => exact ⟨item.pretty depth, by rw [prettyItems], .last hitem hafter⟩
      | cons next items =>
          obtain ⟨text, htext, hlays⟩ := ih (List.cons_ne_nil next items)
            fun other hother => h other (List.mem_cons_of_mem item hother)
          have hcons := LaysItems.cons hitem gap_nil (gap_newLine depth) hlays
          refine ⟨item.pretty depth ++ ',' :: (newLine depth ++ text), ?_, ?_⟩
          · rw [prettyItems, htext, List.append_assoc]
            simp
          · simp only [List.nil_append] at hcons
            simp only [List.append_assoc, List.cons_append]
            exact hcons

/-- Members over lines are a new line and then a layout of the members, in front of any blanks and the closing
brace. -/
theorem exists_laysMembers_pretty {depth : Nat} {members : List (List StringPiece × Json)} {after : List Char}
    (hne : members ≠ []) (hnames : ∀ member ∈ members, ∀ piece ∈ member.1, piece.IsProper)
    (h : ∀ member ∈ members, Lays (member.2.pretty depth) member.2) (hafter : Gap after) :
    ∃ text, prettyMembers depth members = newLine depth ++ text ∧
      LaysMembers (text ++ (after ++ ['}'])) members := by
  induction members with
  | nil => exact absurd rfl hne
  | cons member members ih =>
      obtain ⟨name, value⟩ := member
      have hname := hnames (name, value) List.mem_cons_self
      have hvalue := h (name, value) List.mem_cons_self
      cases members with
      | nil =>
          have hlast := LaysMembers.last hname gap_nil gap_blank hvalue hafter
          refine ⟨'"' :: (writtenPieces name ++ '"' :: ':' :: ' ' :: value.pretty depth), ?_, ?_⟩
          · rw [prettyMembers]
            simp only [List.cons_append, List.append_assoc]
          · simp only [List.nil_append, List.cons_append] at hlast
            simp only [List.cons_append, List.append_assoc]
            exact hlast
      | cons next members =>
          obtain ⟨text, htext, hlays⟩ := ih (List.cons_ne_nil next members)
            (fun other hother => hnames other (List.mem_cons_of_mem _ hother))
            fun other hother => h other (List.mem_cons_of_mem _ hother)
          have hcons := LaysMembers.cons hname gap_nil gap_blank hvalue gap_nil (gap_newLine depth) hlays
          refine ⟨'"' :: (writtenPieces name ++ '"' :: ':' :: ' ' ::
            (value.pretty depth ++ ',' :: (newLine depth ++ text))), ?_, ?_⟩
          · rw [prettyMembers, htext]
            · simp only [List.cons_append, List.append_assoc]
            · simp
          · simp only [List.nil_append, List.cons_append] at hcons
            simp only [List.cons_append, List.append_assoc]
            exact hcons

/-- What is written over lines lays the value out, at any depth. -/
theorem IsPrintable.lays_pretty {value : Json} (h : value.IsPrintable) (depth : Nat) :
    Lays (value.pretty depth) value := by
  -- by induction on the value, for all depths at once: what is inside starts one step deeper
  induction h generalizing depth with
  | null => exact .null
  | bool value =>
      cases value with
      | true => exact .boolTrue
      | false => exact .boolFalse
  | number hn => exact .number hn
  | string hpieces => exact .string hpieces
  | @array items _ ih =>
      cases items with
      | nil => exact .emptyArray gap_nil
      | cons item items =>
          obtain ⟨text, htext, hlays⟩ := exists_laysItems_pretty (List.cons_ne_nil item items)
            (fun other hother => ih other hother (depth + 1)) (gap_newLine depth)
          have harray := Lays.array (gap_newLine (depth + 1)) hlays
          rw [pretty, htext, if_pos rfl, List.cons_append, List.append_assoc]
          exact harray
  | @object members hnames _ ih =>
      cases members with
      | nil => exact .emptyObject gap_nil
      | cons member members =>
          obtain ⟨text, htext, hlays⟩ := exists_laysMembers_pretty (List.cons_ne_nil member members) hnames
            (fun other hother => ih other hother (depth + 1)) (gap_newLine depth)
          have hobject := Lays.object (gap_newLine (depth + 1)) hlays
          rw [pretty, htext, if_pos rfl, List.cons_append, List.append_assoc]
          exact hobject

/-- **What is written over lines is read as the value it was written for.** -/
theorem IsPrintable.read_toPrettyText {value : Json} (h : value.IsPrintable) :
    Json.read value.toPrettyText = (value, true) :=
  (h.lays_pretty 0).read_ofList

end RecipeScript.Json
