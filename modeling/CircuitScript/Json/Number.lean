import CircuitScript.Json.Basic
import CircuitScript.Number.Binary64
/-!
What a written number stands for: an integer if it is written as one, and otherwise a floating point
number. The latter is computed from the leading digits that fit a 64-bit word, by one rounded
multiplication or division with a power of ten.
-/
namespace CircuitScript.Numeral

/-- Appends digits to a significand while it fits 64 bits: the significand, how many digits were
taken, and how many were left. -/
def significand (start : Nat) : List Char → Nat × Nat × Nat
  | [] => (start, 0, 0)
  | c :: rest =>
    let value := start * 10 + (c.toNat - '0'.toNat)
    if value < Nat.pow 2 64 then
      let (value, taken, left) := significand value rest
      (value, taken + 1, left)
    else (start, 0, rest.length + 1)

/-- The number of a non-negative integer that fits 64 bits. -/
def word? (digits : List Char) : Option Nat :=
  match significand 0 digits with
  | (value, _, 0) => some value
  | _ => none

/-- The integer that the numeral is written as. A zero has no sign, and 64 bits hold it. -/
def toInt? (n : Numeral) : Option Int :=
  if n.fraction.isSome || n.exponent.isSome then none
  else
    match word? n.whole with
    | some value =>
      if n.negative then
        if value = 0 ∨ Nat.pow 2 63 < value then none else some (-(value : Int))
      else some value
    | none => none

/-- A finite magnitude times a power of ten, rounded once for each factor of at most `10 ^ 308`.
None if it leaves the range. -/
def timesPower : Nat → Binary64 → Int → Option Binary64
  | 0, value, _ => some value
  | fuel + 1, .finite mantissa exponent, power =>
    let (num, den) := Binary64.fraction mantissa exponent
    let factor := fun n : Nat =>
      match Binary64.nearest (Nat.pow 10 n) 1 with
      | .finite m e => Binary64.fraction m e
      | .infinite => (1, 1)
    if power.natAbs ≤ 308 then
      let (n, d) := factor power.natAbs
      let value :=
        if 0 ≤ power then Binary64.nearest (num * n) (den * d)
        else Binary64.nearest (num * d) (den * n)
      if value = .infinite then none else some value
    else if num = 0 then some (.finite mantissa exponent)
    else if 0 ≤ power then none
    else
      let (n, d) := factor 308
      timesPower fuel (Binary64.nearest (num * d) (den * n)) (power + 308)
  | _ + 1, .infinite, _ => none

/-- The magnitude that the numeral stands for, or none if it is too great. -/
def toBinary64? (n : Numeral) : Option Binary64 :=
  let (value, _, left) := significand 0 n.whole
  let (value, taken, _) := significand value (n.fraction.getD [])
  let power : Int := left - taken
  match n.exponent with
  | none => timesPower 4 (.ofNat value) power
  | some (negative, digits) =>
    let written := (digits.foldl (fun value c => 10 * value + (c.toNat - '0'.toNat)) 0 : Nat)
    if written < Nat.pow 2 31 then
      timesPower (written / 308 + 4) (.ofNat value)
        (if negative then power - written else power + written)
    else if value = 0 ∨ negative then some (.ofNat 0)
    else none

end CircuitScript.Numeral
