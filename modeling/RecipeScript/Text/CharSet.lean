/-!
# Sets of characters

The character classes that this library needs are properties of the Unicode character database. Each is
written down once, as ascending ranges of code points, in a module named for the property. What a class
contains is then a question about a short list of numbers, which a proof can settle range by range instead
of character by character.
-/

namespace RecipeScript

/-- A set of characters, as inclusive ranges of code points in ascending order. -/
structure CharSet where
  ranges : List (Nat × Nat)

namespace CharSet

/-- A character belongs to the set when its code point lies in one of the ranges. -/
def contains (s : CharSet) (c : Char) : Bool :=
  s.ranges.any fun (first, last) => first ≤ c.toNat && c.toNat ≤ last

theorem contains_iff {s : CharSet} {c : Char} :
    s.contains c = true ↔ ∃ r ∈ s.ranges, r.1 ≤ c.toNat ∧ c.toNat ≤ r.2 := by
  simp [contains]

end CharSet

end RecipeScript
