/-!
Binary floating point of 64 bits, as exact integer arithmetic. Only magnitudes are kept here: a sign
never changes how a magnitude rounds.
-/
namespace CircuitScript

/-- A magnitude: `mantissa * 2 ^ exponent` with a mantissa below `2 ^ 53`, or infinity. -/
inductive Binary64
  | finite (mantissa : Nat) (exponent : Int)
  | infinite
  deriving DecidableEq, Repr, Inhabited

namespace Binary64

/-- The least exponent, which all numbers too small for a full mantissa share. -/
def minExponent : Int := -1074

/-- The greatest exponent. -/
def maxExponent : Int := 971

/-- The quotient rounded to the nearest integer, a tie to the even one. -/
def roundHalfEven (num den : Nat) : Nat :=
  let quotient := num / den
  let rest := num % den
  if 2 * rest < den then quotient
  else if den < 2 * rest then quotient + 1
  else if quotient % 2 = 0 then quotient else quotient + 1

/-- A fraction over a power of two, as a fraction: `num / den / 2 ^ exponent`. -/
def shifted (num den : Nat) (exponent : Int) : Nat × Nat :=
  (num * Nat.pow 2 (-exponent).toNat, den * Nat.pow 2 exponent.toNat)

/-- The exponent at which the integer part of a fraction fills a mantissa, or the least one. -/
def exponentOf (num den : Nat) : Int :=
  let guess := max ((num.log2 : Int) - den.log2 - 53) minExponent
  let (n, d) := shifted num den guess
  if Nat.pow 2 53 ≤ n / d then guess + 1 else guess

/-- The magnitude nearest to a fraction, a tie to the even mantissa. -/
def nearest (num den : Nat) : Binary64 :=
  if num = 0 then finite 0 minExponent
  else
    let exponent := exponentOf num den
    let (n, d) := shifted num den exponent
    let mantissa := roundHalfEven n d
    let (mantissa, exponent) :=
      if mantissa = Nat.pow 2 53 then (Nat.pow 2 52, exponent + 1) else (mantissa, exponent)
    if maxExponent < exponent then infinite else finite mantissa exponent

/-- The magnitude nearest to an integer. -/
def ofNat (n : Nat) : Binary64 := nearest n 1

/-- The number of decimal digits. -/
def digitCount (n : Nat) : Nat := (Nat.toDigits 10 n).length

/-- The magnitude nearest to `digits * 10 ^ exponent`. What is far beyond the range is decided by
its order alone. -/
def ofDecimal (digits : Nat) (exponent : Int) : Binary64 :=
  let order := digitCount digits + exponent
  if digits = 0 then finite 0 minExponent
  else if 400 < order then infinite
  else if order < -400 then finite 0 minExponent
  else nearest (digits * Nat.pow 10 exponent.toNat) (Nat.pow 10 (-exponent).toNat)

/-- A finite magnitude as a fraction. -/
def fraction (mantissa : Nat) (exponent : Int) : Nat × Nat :=
  (mantissa * Nat.pow 2 exponent.toNat, Nat.pow 2 (-exponent).toNat)

/-- The integer that a magnitude equals, if it equals one. -/
def toNat? : Binary64 → Option Nat
  | finite mantissa exponent =>
    let (num, den) := fraction mantissa exponent
    if num % den = 0 then some (num / den) else none
  | infinite => none

/-- Digits in a base, from the left, with a rounding after each. -/
def ofDigits (base : Nat) (digits : List Nat) : Binary64 :=
  digits.foldl
    (fun value digit => (value.toNat?.map fun n => ofNat (base * n + digit)).getD infinite)
    (ofNat 0)

end Binary64

end CircuitScript
