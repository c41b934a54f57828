import RecipeScript.Duration
import RecipeScript.Text.Digits

/-!
# Numbers in decimal digits

A number is written in decimal digits without superfluous zeros. Digits end where something else
begins, and the digits that a number is written in are worth that number.
-/

namespace RecipeScript

/-- A text that does not begin with a digit. -/
def EndsDigits (rest : List Char) : Prop :=
  ∀ c, rest.head? = some c → c.isDigit = false

theorem endsDigits_cons {c : Char} (rest : List Char) (h : c.isDigit = false) : EndsDigits (c :: rest) := by
  intro d hd
  rw [← Option.some.inj hd, h]

section Span

variable {digits rest : List Char}

theorem takeWhile_isDigit (hdigits : ∀ c ∈ digits, c.isDigit = true) (hrest : EndsDigits rest) :
    (digits ++ rest).takeWhile Char.isDigit = digits := by
  rw [List.takeWhile_append_of_pos hdigits]
  cases rest with
  | nil => rw [List.takeWhile_nil, List.append_nil]
  | cons c rest => rw [List.takeWhile_cons_of_neg (by rw [hrest c rfl]; simp), List.append_nil]

theorem dropWhile_isDigit (hdigits : ∀ c ∈ digits, c.isDigit = true) (hrest : EndsDigits rest) :
    (digits ++ rest).dropWhile Char.isDigit = rest := by
  rw [List.dropWhile_append_of_pos hdigits]
  cases rest with
  | nil => rfl
  | cons c rest => rw [List.dropWhile_cons_of_neg (by rw [hrest c rfl]; simp)]

end Span

/-! ## The digits of a number -/

theorem isDigit_of_mem_toDigits {n : Nat} : ∀ c ∈ Nat.toDigits 10 n, c.isDigit = true :=
  fun _ hc => Nat.isDigit_of_mem_toDigits (by decide) (by decide) hc

theorem isWholeNumber_toString (n : Nat) : IsWholeNumber (toString n) := by
  rw [Nat.toString_eq_repr]
  unfold IsWholeNumber
  rw [Nat.toList_repr]
  exact ⟨Nat.toDigits_ne_nil, isDigit_of_mem_toDigits⟩

/-- **The digits of a number are worth the number.** -/
theorem decimalValue_toDigits (n : Nat) : decimalValue (Nat.toDigits 10 n) = n := by
  have hfold : decimalValue (Nat.toDigits 10 n) = Nat.ofDigitChars 10 (Nat.toDigits 10 n) 0 := by
    rw [Nat.ofDigitChars_eq_foldl]
    unfold decimalValue
    simp only [Nat.mul_comm]
  rw [hfold, Nat.ofDigitChars_toDigits (by decide) (by decide)]

theorem eq_zero_of_digitChar : ∀ d, d < 10 → Nat.digitChar d = '0' → d = 0 := by decide

/-- Only zero is written with a zero in front. -/
theorem toDigits_of_head?_eq_zero {n : Nat} (h : (Nat.toDigits 10 n).head? = some '0') :
    Nat.toDigits 10 n = ['0'] := by
  have hzero : n = 0 := by
    induction n using Nat.strongRecOn with
    | ind n ih =>
        by_cases hlt : n < 10
        · rw [Nat.toDigits_of_lt_base hlt] at h
          exact eq_zero_of_digitChar n hlt (Option.some.inj h)
        · rw [Nat.toDigits_of_base_le (by decide) (by omega),
            List.head?_append, List.head?_eq_some_head Nat.toDigits_ne_nil] at h
          have := ih (n / 10) (by omega) (by rw [List.head?_eq_some_head Nat.toDigits_ne_nil]; exact h)
          omega
  rw [hzero]
  rfl

end RecipeScript
