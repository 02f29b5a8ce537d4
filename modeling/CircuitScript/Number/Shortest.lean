import CircuitScript.Number.Binary64
/-!
The shortest decimal that reads back as a given magnitude, and its positional layout.
-/
namespace CircuitScript.Binary64

/-- A decimal `0.d₁d₂… * 10 ^ point`. -/
structure Decimal where
  digits : List Char
  point : Int
  deriving DecidableEq, Repr, Inhabited

/-- How many places after the point the first digit of a fraction below one stands. -/
def leadingPlaces : Nat → Nat → Nat → Nat
  | 0, _, _ => 0
  | fuel + 1, num, den => if den ≤ 10 * num then 0 else leadingPlaces fuel (10 * num) den + 1

/-- The least power of ten above a fraction. -/
def decimalOrder (num den : Nat) : Int :=
  if den ≤ num then digitCount (num / den) else -(leadingPlaces 400 num den : Int)

/-- The fractions that read back as `mantissa * 2 ^ exponent`, from the lower to the upper end, in
units of `2 ^ (exponent - 2)`. Below a power of two the neighbour is twice as near. -/
def readBack (mantissa : Nat) (exponent : Int) : Nat × Nat :=
  let below := if mantissa = Nat.pow 2 52 ∧ minExponent < exponent then 1 else 2
  (4 * mantissa - below, 4 * mantissa + 2)

/-- The integer `c` with `c * 10 ^ (order - places)` nearest to the magnitude among those that read
back as it, a tie upwards; none if there is none. -/
def candidate? (mantissa : Nat) (exponent order : Int) (places : Nat) : Option Nat :=
  let scale := order - places
  let decimal := Nat.pow 10 scale.toNat * Nat.pow 2 (2 - exponent).toNat
  let binary := Nat.pow 2 (exponent - 2).toNat * Nat.pow 10 (-scale).toNat
  let (low, high) := readBack mantissa exponent
  let hit := fun c : Nat =>
    if mantissa % 2 = 0 then low * binary ≤ c * decimal ∧ c * decimal ≤ high * binary
    else low * binary < c * decimal ∧ c * decimal < high * binary
  let value := 4 * mantissa * binary
  let down := value / decimal
  let up := down + 1
  if hit down then
    if hit up ∧ up * decimal - value ≤ value - down * decimal then some up else some down
  else if hit up then some up
  else none

/-- The first candidate, trying `places` and then ever more digits. -/
def shortestFrom (mantissa : Nat) (exponent order : Int) : Nat → Nat → Decimal
  | 0, places => ⟨Nat.toDigits 10 mantissa, places⟩
  | fuel + 1, places =>
    match candidate? mantissa exponent order places with
    | some c =>
      let digits := Nat.toDigits 10 c
      ⟨(digits.reverse.dropWhile (· == '0')).reverse, order + (digits.length - places)⟩
    | none => shortestFrom mantissa exponent order fuel (places + 1)

/-- The fewest digits that read back as a finite magnitude, and of those the nearest. Seventeen
always do. -/
def shortest (mantissa : Nat) (exponent : Int) : Decimal :=
  let (num, den) := fraction mantissa exponent
  shortestFrom mantissa exponent (decimalOrder num den) 17 1

/-- All digits in their places, with no exponent and no point after an integer. -/
def Decimal.positional (decimal : Decimal) : String :=
  let count := decimal.digits.length
  let zeros := fun n : Int => List.replicate n.toNat '0'
  String.ofList <|
    if decimal.point ≤ 0 then
      '0' :: '.' :: zeros (-decimal.point) ++ decimal.digits
    else if count ≤ decimal.point then
      decimal.digits ++ zeros (decimal.point - count)
    else
      decimal.digits.take decimal.point.toNat ++ '.' :: decimal.digits.drop decimal.point.toNat

/-- A magnitude in full. -/
def text : Binary64 → String
  | infinite => "inf"
  | finite 0 _ => "0"
  | finite mantissa exponent => (shortest mantissa exponent).positional

end CircuitScript.Binary64
