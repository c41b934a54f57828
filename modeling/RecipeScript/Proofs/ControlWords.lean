import RecipeScript.Console
import RecipeScript.Proofs.Recognition

/-!
# Control words

A line typed at a console is compared with two kinds of words in two different ways: with exit words
ignoring the case of ASCII letters, and with the control words in full Unicode small letters. On the
control words the two are one and the same, because none of them has a letter that a character
outside ASCII stands for. So `ofLine_eq` can tell what a line asks for with a single comparison.
-/

namespace RecipeScript

namespace Console

theorem standsFor_iff_toLower {c d : Char} (hd : IsPlain d) (hk : d ≠ 'k') :
    StandsFor c d ↔ c.toLower = d := by
  constructor
  · rintro (rfl | ⟨-, h⟩ | ⟨h, -⟩)
    · rw [isPlain_iff] at hd
      have hlower := toNat_toLower c
      rw [if_neg (by omega)] at hlower
      exact Char.toNat_inj.mp hlower
    · exact h
    · exact absurd h hk
  · rintro rfl
    exact standsFor_toLower c

theorem forall₂_standsFor_iff {cs ds : List Char} (hds : ∀ d ∈ ds, IsPlain d ∧ d ≠ 'k') :
    List.Forall₂ StandsFor cs ds ↔ cs.map Char.toLower = ds := by
  induction cs generalizing ds with
  | nil =>
      rw [List.forall₂_nil_left_iff]
      exact ⟨fun h => h.symm, fun h => h.symm⟩
  | cons c cs ih =>
      cases ds with
      | nil => exact ⟨(by intro h; cases h), (by intro h; cases h)⟩
      | cons d ds =>
          obtain ⟨hd, hk⟩ := hds d List.mem_cons_self
          rw [List.forall₂_cons, List.map_cons, List.cons.injEq, standsFor_iff_toLower hd hk,
            ih fun e he => hds e (List.mem_cons_of_mem d he)]

/-- **On plain words without a `k`, the two comparisons agree.** -/
theorem lowercase_eq_iff_sameWord {name : String} (hname : IsPlainWord name) (hk : 'k' ∉ name.toList)
    (word : String) : lowercase word = name ↔ sameWord name word = true := by
  have hplain : ∀ d ∈ name.toList, IsPlain d ∧ d ≠ 'k' :=
    fun d hd => ⟨hname d hd, fun h => hk (h ▸ hd)⟩
  have hsmall : name.toList.map Char.toLower = name.toList := by
    rw [← forall₂_standsFor_iff hplain, List.forall₂_same]
    exact fun d _ => Or.inl rfl
  rw [lowercase_eq_iff hname]
  unfold WordStandsFor sameWord
  rw [forall₂_standsFor_iff hplain, hsmall, beq_iff_eq]
  exact eq_comm

/-- The words that a session takes for itself, whatever its exit words. -/
def controlWords : List String := ["help", "recipe", "clear"]

namespace Request

theorem lowercase_eq_help_iff (word : String) : lowercase word = "help" ↔ sameWord "help" word = true :=
  lowercase_eq_iff_sameWord (by decide) (by decide) word

theorem lowercase_eq_recipe_iff (word : String) :
    lowercase word = "recipe" ↔ sameWord "recipe" word = true :=
  lowercase_eq_iff_sameWord (by decide) (by decide) word

theorem lowercase_eq_clear_iff (word : String) :
    lowercase word = "clear" ↔ sameWord "clear" word = true :=
  lowercase_eq_iff_sameWord (by decide) (by decide) word

/-- **What a line asks for**, with one comparison for all words. -/
theorem ofLine_eq (exitWords : List String) (line : String) : ofLine exitWords line =
    if trim line = "" then .nothing
    else if exitWords.any (sameWord · (trim line)) then .exit
    else if sameWord "help" (trim line) then .help
    else if sameWord "recipe" (trim line) then .showRecipe
    else if sameWord "clear" (trim line) then .clear
    else .statement (trim line) := by
  unfold ofLine
  dsimp only
  by_cases hblank : trim line = ""
  · rw [if_pos hblank, if_pos hblank]
  rw [if_neg hblank, if_neg hblank]
  -- exit words come first, so one of them may well be a control word
  by_cases hexit : exitWords.any (sameWord · (trim line)) = true
  · rw [if_pos hexit, if_pos hexit]
  rw [if_neg hexit, if_neg hexit]
  simp only [← lowercase_eq_help_iff, ← lowercase_eq_recipe_iff, ← lowercase_eq_clear_iff]
  split
  · rename_i h
    rw [if_pos h]
  · rename_i h
    rw [if_neg (by rw [h]; decide), if_pos h]
  · rename_i h
    rw [if_neg (by rw [h]; decide), if_neg (by rw [h]; decide), if_pos h]
  · rename_i hhelp hrecipe hclear
    rw [if_neg hhelp, if_neg hrecipe, if_neg hclear]

end Request

end Console

end RecipeScript
