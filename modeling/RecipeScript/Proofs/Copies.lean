import RecipeScript.Proofs.Ingredients
import RecipeScript.Proofs.JsonReport

/-!
# Copies of a recipe

Copies of a recipe can be put aside while it is worked on, and taken back. Whatever is done in between,
every copy stays what it was when it was put aside (`copies_prefix_applyAll`), and the recipe and all
copies keep their ingredients in step with their steps: for recording and starting over this is a fact
about one recipe, and putting aside and taking back bring no new recipe in.
-/

namespace RecipeScript

/-- A recipe that is worked on, and the copies that were put aside, the latest last. -/
structure Draft where
  current : Recipe
  copies : List Recipe

namespace Draft

/-- One thing that is done with a draft. -/
inductive Move where
  | change (c : Recipe.Change)
  | save
  /-- Goes on with a copy, which stays among the copies. Without a copy in that place nothing happens. -/
  | restore (place : Nat)

/-- Makes a move. -/
def apply (draft : Draft) : Move → Draft
  | .change c => { draft with current := draft.current.change c }
  | .save => { draft with copies := draft.copies ++ [draft.current] }
  | .restore place => { draft with current := draft.copies[place]?.getD draft.current }

/-- Makes moves, one after the other. -/
def applyAll (draft : Draft) (moves : List Move) : Draft :=
  moves.foldl apply draft

/-- The draft of a new recipe. -/
def start : Draft := ⟨Recipe.empty, []⟩

/-- The recipe and all copies are consistent. -/
def IsConsistent (draft : Draft) : Prop :=
  ∀ recipe ∈ draft.current :: draft.copies, recipe.IsConsistent

section Moves

variable {draft : Draft}

theorem isConsistent_start : start.IsConsistent := by
  intro recipe hrecipe
  rw [List.mem_singleton.mp hrecipe]
  exact Recipe.isConsistent_empty

/-- **Every move keeps all recipes consistent.** -/
theorem IsConsistent.apply (h : draft.IsConsistent) (move : Move) : (draft.apply move).IsConsistent := by
  obtain ⟨hcurrent, hcopies⟩ := List.forall_mem_cons.mp h
  cases move with
  | change c =>
      refine List.forall_mem_cons.mpr ⟨?_, hcopies⟩
      cases c with
      | record i => exact hcurrent.record i
      | reset => exact Recipe.isConsistent_empty
  | save =>
      refine List.forall_mem_cons.mpr ⟨hcurrent, fun recipe hrecipe => ?_⟩
      rcases List.mem_append.mp hrecipe with hcopy | hnew
      · exact hcopies recipe hcopy
      · rw [List.mem_singleton.mp hnew]
        exact hcurrent
  | restore place =>
      -- what comes back has been consistent all the time
      refine List.forall_mem_cons.mpr ⟨?_, hcopies⟩
      show (draft.copies[place]?.getD draft.current).IsConsistent
      cases hcopy : draft.copies[place]? with
      | none => exact hcurrent
      | some copy => exact hcopies copy (List.mem_of_getElem? hcopy)

theorem IsConsistent.applyAll (h : draft.IsConsistent) (moves : List Move) :
    (draft.applyAll moves).IsConsistent := by
  induction moves generalizing draft with
  | nil => exact h
  | cons move moves ih => exact ih (h.apply move)

theorem copies_prefix_apply (draft : Draft) (move : Move) : draft.copies <+: (draft.apply move).copies := by
  cases move with
  | save => exact List.prefix_append _ _
  | change c => exact List.prefix_refl _
  | restore place => exact List.prefix_refl _

/-- **No copy is changed by what is done later.** -/
theorem copies_prefix_applyAll (draft : Draft) (moves : List Move) :
    draft.copies <+: (draft.applyAll moves).copies := by
  induction moves generalizing draft with
  | nil => exact List.prefix_refl _
  | cons move moves ih => exact (draft.copies_prefix_apply move).trans (ih (draft.apply move))

/-- What was put aside is taken back as it was, whatever was done in between. -/
theorem current_restore_save (draft : Draft) (moves : List Move) :
    (((draft.apply .save).applyAll moves).apply (.restore draft.copies.length)).current = draft.current := by
  obtain ⟨later, hlater⟩ := (draft.apply .save).copies_prefix_applyAll moves
  have hcopy : ((draft.apply .save).applyAll moves).copies[draft.copies.length]? = some draft.current := by
    rw [← hlater]
    show (draft.copies ++ [draft.current] ++ later)[draft.copies.length]? = some draft.current
    rw [List.append_assoc, List.getElem?_append_right (le_refl _), Nat.sub_self]
    rfl
  show (((draft.apply .save).applyAll moves).copies[draft.copies.length]?.getD _) = draft.current
  rw [hcopy, Option.getD_some]

end Moves

/--
**Recipes and their copies stay in step with their steps.** After any moves, the recipe and every copy
have their steps numbered from one, use what their mixing steps mix and nothing else, and list it in
strictly alphabetical order, whatever the order in which it is gone through or was recorded; the text has
a block of ingredients exactly if a step mixes any. Whatever is done next, the copies stay as they are, and
a copy that is put aside now can be taken back as it is now.
-/
theorem drafts_in_step (moves : List Move) :
    let draft := start.applyAll moves
    (∀ recipe ∈ draft.current :: draft.copies, recipe.ShowsIngredients)
      ∧ ∀ more : List Move, draft.copies <+: (draft.applyAll more).copies
        ∧ (((draft.apply .save).applyAll more).apply (.restore draft.copies.length)).current = draft.current := by
  intro draft
  have hdraft : draft.IsConsistent := isConsistent_start.applyAll moves
  exact ⟨fun recipe hrecipe => (hdraft recipe hrecipe).showsIngredients,
    fun more => ⟨draft.copies_prefix_applyAll more, draft.current_restore_save more⟩⟩

end Draft

end RecipeScript
