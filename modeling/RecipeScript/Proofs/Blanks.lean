import Mathlib.Data.List.DropRight
import RecipeScript.Text.Blank

/-!
# Trimming and words

Trimming takes blanks from the two ends of a line and nothing else, so it can be repeated at will
and never changes the words. Blanks around the words of a line belong to no word; what a trimmed
line begins with is what its first word begins with, which is how a comment can be told from the
words alone.
-/

namespace RecipeScript

/-! ## Pieces -/

section Pieces

variable {α : Type} {p : α → Bool}

theorem exists_splitOn_eq_cons (p : α → Bool) (xs : List α) :
    ∃ piece pieces, splitOn p xs = piece :: pieces :=
  List.exists_cons_of_ne_nil (splitOn_ne_nil xs)

theorem splitOn_cons_sep {x : α} (xs : List α) (hx : p x = true) :
    splitOn p (x :: xs) = [] :: splitOn p xs := by
  rw [splitOn, if_pos hx]

theorem splitOn_cons_of_not {x : α} {xs piece : List α} {pieces : List (List α)}
    (hx : p x = false) (h : splitOn p xs = piece :: pieces) :
    splitOn p (x :: xs) = (x :: piece) :: pieces := by
  rw [splitOn, if_neg (by simp [hx]), h]

/-- What holds no separator goes in front of the first piece. -/
theorem splitOn_append_of_not {xs ys piece : List α} {pieces : List (List α)}
    (hxs : ∀ x ∈ xs, p x = false) (h : splitOn p ys = piece :: pieces) :
    splitOn p (xs ++ ys) = (xs ++ piece) :: pieces := by
  induction xs with
  | nil => exact h
  | cons x xs ih =>
      rw [List.cons_append, List.cons_append]
      exact splitOn_cons_of_not (hxs x List.mem_cons_self)
        (ih fun y hy => hxs y (List.mem_cons_of_mem x hy))

end Pieces

/-! ## Blanks at the ends -/

theorem trimBlanks_eq (cs : List Char) :
    trimBlanks cs = (cs.dropWhile isBlank).rdropWhile isBlank := rfl

theorem not_isBlank_of_head?_dropWhile {cs : List Char} {c : Char}
    (h : (cs.dropWhile isBlank).head? = some c) : isBlank c = false := by
  have := List.head?_dropWhile_not isBlank cs
  rw [h] at this
  simpa using this

/-- Trimming the end of a text that begins with no blank leaves its beginning alone. -/
theorem head?_trimBlanks (cs : List Char) : (trimBlanks cs).head? = (cs.dropWhile isBlank).head? := by
  rw [trimBlanks_eq]
  obtain ⟨tail, htail⟩ := List.rdropWhile_prefix isBlank (l := cs.dropWhile isBlank)
  cases hds : cs.dropWhile isBlank with
  | nil => simp
  | cons c ds =>
      have hc : isBlank c = false := not_isBlank_of_head?_dropWhile (congrArg List.head? hds)
      rw [hds] at htail
      -- dropping from the end stops at `c` at the latest
      cases hr : List.rdropWhile isBlank (c :: ds) with
      | nil =>
          have := List.rdropWhile_eq_nil_iff.mp hr c List.mem_cons_self
          rw [hc] at this
          exact absurd this (by simp)
      | cons d rs =>
          rw [hr, List.cons_append] at htail
          rw [(List.cons.inj htail).1]
          rfl

theorem not_isBlank_head_trimBlanks {cs ds : List Char} {c : Char} (h : trimBlanks cs = c :: ds) :
    isBlank c = false := by
  have hhead := head?_trimBlanks cs
  rw [h] at hhead
  exact not_isBlank_of_head?_dropWhile hhead.symm

theorem trimBlanks_trimBlanks (cs : List Char) : trimBlanks (trimBlanks cs) = trimBlanks cs := by
  have hfront : (trimBlanks cs).dropWhile isBlank = trimBlanks cs := by
    cases h : trimBlanks cs with
    | nil => rfl
    | cons c ds => rw [List.dropWhile_cons_of_neg (by simp [not_isBlank_head_trimBlanks h])]
  rw [trimBlanks_eq (trimBlanks cs), hfront, trimBlanks_eq, List.rdropWhile_idempotent]

theorem rdropWhile_append_of_blanks {back : List Char} (h : ∀ c ∈ back, isBlank c = true) (cs : List Char) :
    (cs ++ back).rdropWhile isBlank = cs.rdropWhile isBlank := by
  have hreverse : ∀ c ∈ back.reverse, isBlank c = true := fun c hc => h c (List.mem_reverse.mp hc)
  unfold List.rdropWhile
  rw [List.reverse_append, List.dropWhile_append_of_pos hreverse]

theorem trimBlanks_surrounded {front back : List Char} (hfront : ∀ c ∈ front, isBlank c = true)
    (hback : ∀ c ∈ back, isBlank c = true) (cs : List Char) :
    trimBlanks (front ++ cs ++ back) = trimBlanks cs := by
  rw [trimBlanks_eq, trimBlanks_eq, List.append_assoc, List.dropWhile_append_of_pos hfront,
    List.dropWhile_append]
  by_cases hcs : (cs.dropWhile isBlank).isEmpty = true
  · -- nothing but blanks, so all of it goes at the front
    have hnone : back.dropWhile isBlank = [] := List.dropWhile_eq_nil_iff.mpr hback
    rw [if_pos hcs, hnone, List.isEmpty_iff.mp hcs]
  · rw [if_neg hcs, rdropWhile_append_of_blanks hback]

theorem trimBlanks_of_forall {cs : List Char} (h : ∀ c ∈ cs, isBlank c = false) : trimBlanks cs = cs := by
  have hfront : cs.dropWhile isBlank = cs := by
    cases cs with
    | nil => rfl
    | cons c cs => rw [List.dropWhile_cons_of_neg (by simp [h c List.mem_cons_self])]
  rw [trimBlanks_eq, hfront, List.rdropWhile_eq_self_iff]
  intro hne
  rw [h _ (List.getLast_mem hne)]
  exact Bool.false_ne_true

/-- **Trimming once is enough.** -/
@[simp] theorem trim_trim (line : String) : trim (trim line) = trim line := by
  unfold trim
  rw [String.toList_ofList, trimBlanks_trimBlanks]

@[simp] theorem isBlankOrComment_trim (line : String) :
    isBlankOrComment (trim line) = isBlankOrComment line := by
  unfold isBlankOrComment
  rw [trim_trim]

theorem toList_trim (line : String) : (trim line).toList = trimBlanks line.toList := by
  unfold trim
  rw [String.toList_ofList]

/-! ## Words -/

theorem blankSeparated_cons_blank {c : Char} (cs : List Char) (hc : isBlank c = true) :
    blankSeparated (c :: cs) = blankSeparated cs := by
  unfold blankSeparated
  rw [splitOn_cons_sep cs hc]
  rfl

theorem blankSeparated_append_blank {c : Char} (cs : List Char) (hc : isBlank c = true) :
    blankSeparated (cs ++ [c]) = blankSeparated cs := by
  unfold blankSeparated
  rw [splitOn_append_sep cs [] hc, List.filter_append]
  simp [splitOn]

theorem blankSeparated_cons_of_not {c : Char} (cs : List Char) (hc : isBlank c = false) :
    ∃ word more, blankSeparated (c :: cs) = (c :: word) :: more := by
  obtain ⟨piece, pieces, h⟩ := exists_splitOn_eq_cons isBlank cs
  refine ⟨piece, pieces.filter fun piece => !piece.isEmpty, ?_⟩
  unfold blankSeparated
  rw [splitOn_cons_of_not hc h]
  rfl

theorem blankSeparated_dropWhile (cs : List Char) :
    blankSeparated (cs.dropWhile isBlank) = blankSeparated cs := by
  induction cs with
  | nil => rfl
  | cons c cs ih =>
      by_cases hc : isBlank c = true
      · rw [List.dropWhile_cons_of_pos hc, ih, blankSeparated_cons_blank cs hc]
      · rw [List.dropWhile_cons_of_neg hc]

theorem blankSeparated_rdropWhile (cs : List Char) :
    blankSeparated (cs.rdropWhile isBlank) = blankSeparated cs := by
  induction cs using List.reverseRecOn with
  | nil => rfl
  | append_singleton cs c ih =>
      by_cases hc : isBlank c = true
      · rw [List.rdropWhile_concat_pos _ _ _ hc, ih, blankSeparated_append_blank cs hc]
      · rw [List.rdropWhile_concat_neg _ _ _ hc]

/-- **Trimming keeps the words.** -/
@[simp] theorem words_trim (line : String) : words (trim line) = words line := by
  unfold words
  rw [toList_trim, trimBlanks_eq, blankSeparated_rdropWhile, blankSeparated_dropWhile]

theorem head?_trimBlanks_eq_head?_word (cs : List Char) :
    (trimBlanks cs).head? = (blankSeparated cs).head?.bind List.head? := by
  rw [head?_trimBlanks, ← blankSeparated_dropWhile]
  cases h : cs.dropWhile isBlank with
  | nil => rfl
  | cons c ds =>
      have hc : isBlank c = false := not_isBlank_of_head?_dropWhile (congrArg List.head? h)
      obtain ⟨word, more, hw⟩ := blankSeparated_cons_of_not ds hc
      rw [hw]
      rfl

theorem isBlankOrComment_eq (line : String) :
    isBlankOrComment line = ((trim line).toList.head?.all (· == '#')) := by
  unfold isBlankOrComment
  cases (trim line).toList <;> rfl

/-- A line with words is a comment exactly if its first word begins with the sign of one. -/
theorem isBlankOrComment_eq_head?_word (line : String) :
    isBlankOrComment line = ((words line).head?.bind fun word => word.toList.head?).all (· == '#') := by
  rw [isBlankOrComment_eq, toList_trim, head?_trimBlanks_eq_head?_word]
  unfold words
  cases blankSeparated line.toList with
  | nil => rfl
  | cons word more => simp

end RecipeScript
