import RecipeScript.Text.Digits

/-!
# Numbers as JSON writes them

A number in JSON text is a numeral: an optional minus sign, a whole part without superfluous zeros, and optionally a
fraction and an exponent. The digits are kept as they stand, since what a numeral means depends on who asks. Two
questions come up.

**Is it a natural number?** Only a numeral without sign, fraction and exponent counts, and only if it is below 2⁶⁴;
a larger one, `1.0` and `-0` stand for floating-point numbers. An integer of −2⁶³ … −1 is an integer all the same.

**Is it a number at all?** A numeral that turns into infinity in double precision is not. It is turned in three roundings,
each to the nearest double and to the even one of two: the digits in front, as far as they make a number below 2⁶⁴; the
power of ten that this number has to be multiplied by; and their product. So the last digits of a long numeral do not
count, and close to the largest double the answer can differ from what the numeral alone would say. All of this is done on
natural numbers: only large powers of ten can lead to infinity, and those below 10³⁰⁹ can be written out.
-/

namespace RecipeScript

/-- A number as it is written. -/
structure Numeral where
  negative : Bool
  /-- The digits before the point. -/
  whole : List Char
  /-- The digits after the point; none if there is no point. -/
  fraction : List Char
  exponentNegative : Bool
  /-- The digits of the exponent; none if there is no exponent. -/
  exponent : List Char
deriving DecidableEq, Repr

namespace Numeral

/-- A numeral without fraction and exponent. -/
def isInteger (n : Numeral) : Bool :=
  n.fraction.isEmpty && n.exponent.isEmpty

/-- The natural number below 2⁶⁴ that the numeral stands for, if it stands for one. -/
def natural? (n : Numeral) : Option Nat :=
  if !n.negative && n.isInteger && decimalValue n.whole < Nat.pow 2 64 then some (decimalValue n.whole) else none

/-- Whether the numeral stands for an integer of −2⁶³ … −1. -/
def isNegativeInteger (n : Numeral) : Bool :=
  n.negative && n.isInteger && 0 < decimalValue n.whole && decimalValue n.whole ≤ Nat.pow 2 63

/-- The least magnitude that rounds to infinity in double precision: half a unit above the largest double. -/
def overflowBound : Nat := Nat.pow 2 1024 - Nat.pow 2 970

/-- The double nearest to a natural number, and of two the even one, where the exponent is not bounded. -/
def nearestDouble (n : Nat) : Nat :=
  let unit := Nat.pow 2 (n.log2 - 52)
  let below := n / unit
  let rest := n % unit
  let up := unit < 2 * rest || (unit == 2 * rest && below % 2 == 1)
  (if up then below + 1 else below) * unit

/-- The number that the digits in front make, as long as it stays below 2⁶⁴, and how many digits are left over. `value` is
what the digits before these make. -/
def significand (value : Nat) : List Char → Nat × Nat
  | [] => (value, 0)
  | c :: cs =>
    let next := value * 10 + (c.toNat - '0'.toNat)
    if next < Nat.pow 2 64 then significand next cs else (value, cs.length + 1)

/-- Whether the numeral stays finite in double precision. -/
def isFinite (n : Numeral) : Bool :=
  let (value, left) := significand 0 (n.whole ++ n.fraction)
  let exponent : Int := if n.exponentNegative then -decimalValue n.exponent else decimalValue n.exponent
  let scale := exponent + left - n.fraction.length
  if value = 0 || scale < 0 then true
  else if 308 < scale then false
  else nearestDouble value * nearestDouble (Nat.pow 10 scale.toNat) < overflowBound

/-- The numeral of a natural number. -/
def ofNat (n : Nat) : Numeral :=
  ⟨false, Nat.toDigits 10 n, [], false, []⟩

/-- The text of a numeral. -/
def text (n : Numeral) : List Char :=
  (if n.negative then ['-'] else []) ++ n.whole
    ++ (if n.fraction.isEmpty then [] else '.' :: n.fraction)
    ++ (if n.exponent.isEmpty then [] else 'e' :: (if n.exponentNegative then ['-'] else []) ++ n.exponent)

/-! ## Reading -/

/-- The digits in front, and the rest. -/
def takeDigits (cs : List Char) : List Char × List Char :=
  (cs.takeWhile Char.isDigit, cs.dropWhile Char.isDigit)

/-- The digits in front, of which there has to be one. -/
def takeDigits1? (cs : List Char) : Option (List Char × List Char) :=
  match takeDigits cs with
  | ([], _) => none
  | found => some found

/-- The part before the point: no digit may follow a leading zero. -/
def takeWhole? (cs : List Char) : Option (List Char × List Char) :=
  match takeDigits cs with
  | ([], _) => none
  | ('0' :: _ :: _, _) => none
  | found => some found

/-- The part after the point, which may be absent. -/
def takeFraction? : List Char → Option (List Char × List Char)
  | '.' :: cs => takeDigits1? cs
  | cs => some ([], cs)

/-- The exponent with its sign, which may be absent. -/
def takeExponent? : List Char → Option (Bool × List Char × List Char)
  | [] => some (false, [], [])
  | c :: cs =>
    if c = 'e' ∨ c = 'E' then
      match cs with
      | '-' :: rest => (takeDigits1? rest).map fun (digits, rest) => (true, digits, rest)
      | '+' :: rest => (takeDigits1? rest).map fun (digits, rest) => (false, digits, rest)
      | rest => (takeDigits1? rest).map fun (digits, rest) => (false, digits, rest)
    else some (false, [], c :: cs)

/-- The numeral at the front of a text and what follows it, or `none` if there is no well-formed one. -/
def take? (cs : List Char) : Option (Numeral × List Char) := do
  let (negative, cs) := match cs with
    | '-' :: rest => (true, rest)
    | _ => (false, cs)
  let (whole, cs) ← takeWhole? cs
  let (fraction, cs) ← takeFraction? cs
  let (exponentNegative, exponent, cs) ← takeExponent? cs
  return (⟨negative, whole, fraction, exponentNegative, exponent⟩, cs)

end Numeral

end RecipeScript
