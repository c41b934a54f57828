import RecipeScript.Text.CharSet

/-!
# Blanks, trimming and words

A blank is a character with the Unicode property `White_Space`. A line is trimmed of blanks at both ends and
cut into words at blanks, so any amount and any kind of blank between two words reads the same. The zero-width
characters (U+200B, U+FEFF and their like) do not have the property and stay part of a word.

Splitting is stated once, for lists over any type: `splitOn p xs` cuts `xs` at each element that satisfies `p`
and keeps the empty pieces. Words are the non-empty pieces between blanks; lines are pieces between line feeds.
-/

namespace RecipeScript

/-- The characters with the property `White_Space`. -/
def blanks : CharSet :=
  ⟨[(0x9, 0xD), (0x20, 0x20), (0x85, 0x85), (0xA0, 0xA0), (0x1680, 0x1680), (0x2000, 0x200A),
    (0x2028, 0x2029), (0x202F, 0x202F), (0x205F, 0x205F), (0x3000, 0x3000)]⟩

/-- Whether a character is white space. -/
def isBlank (c : Char) : Bool :=
  blanks.contains c

/-! ## Splitting -/

/-- The pieces of a list between the elements that satisfy `p`, empty ones included. There is always at least one
piece, and the separators are dropped. -/
def splitOn {α : Type} (p : α → Bool) : List α → List (List α)
  | [] => [[]]
  | x :: xs =>
    if p x then [] :: splitOn p xs
    else match splitOn p xs with
      | [] => [[x]]
      | piece :: pieces => (x :: piece) :: pieces

section Splitting

variable {α : Type} {p : α → Bool}

theorem splitOn_ne_nil (xs : List α) : splitOn p xs ≠ [] := by
  cases xs with
  | nil => simp [splitOn]
  | cons x xs =>
    rw [splitOn]
    split
    · simp
    · split <;> simp

/-- Cutting is local: a separator ends what comes before it, whatever follows. -/
theorem splitOn_append_sep (xs ys : List α) {x : α} (hx : p x = true) :
    splitOn p (xs ++ x :: ys) = splitOn p xs ++ splitOn p ys := by
  induction xs with
  | nil => simp [splitOn, hx]
  | cons y xs ih =>
    rw [List.cons_append, splitOn, splitOn, ih]
    split
    · simp
    · cases h : splitOn p xs with
      | nil => exact absurd h (splitOn_ne_nil xs)
      | cons piece pieces => simp

/-- A list without separators is one piece. -/
theorem splitOn_eq_singleton {xs : List α} (h : ∀ x ∈ xs, p x = false) : splitOn p xs = [xs] := by
  induction xs with
  | nil => rfl
  | cons x xs ih =>
    rw [splitOn, ih fun y hy => h y (List.mem_cons_of_mem x hy)]
    simp [h x List.mem_cons_self]

end Splitting

/-! ## Trimming and words -/

/-- A text without the blanks at its two ends. -/
def trimBlanks (cs : List Char) : List Char :=
  ((cs.dropWhile isBlank).reverse.dropWhile isBlank).reverse

/-- The words of a text: the non-empty pieces between blanks. -/
def blankSeparated (cs : List Char) : List (List Char) :=
  (splitOn isBlank cs).filter fun piece => !piece.isEmpty

/-- A line without the blanks at its two ends. -/
def trim (line : String) : String :=
  String.ofList (trimBlanks line.toList)

/-- Whether a line holds nothing but blanks, or begins, blanks apart, with the sign of a comment. -/
def isBlankOrComment (line : String) : Bool :=
  match (trim line).toList with
  | [] => true
  | c :: _ => c == '#'

/-- The words of a line, in order. -/
def words (line : String) : List String :=
  (blankSeparated line.toList).map String.ofList

end RecipeScript
