/-!
JSON values as they are written: a number keeps its digits, an object the order of its members.
-/
namespace CircuitScript

/-- A number as it is written. -/
structure Numeral where
  negative : Bool
  /-- Digits before the point. -/
  whole : List Char
  /-- Digits after the point, if there is one. -/
  fraction : Option (List Char)
  /-- The sign of the exponent, true for minus, and its digits. -/
  exponent : Option (Bool × List Char)
  deriving DecidableEq, Repr, Inhabited

namespace Numeral

def ofNat (n : Nat) : Numeral := ⟨false, Nat.toDigits 10 n, none, none⟩

def ofInt (n : Int) : Numeral := ⟨decide (n < 0), Nat.toDigits 10 n.natAbs, none, none⟩

/-- Half of an integer, with one digit after the point. -/
def ofHalves (n : Int) : Numeral where
  negative := decide (n < 0)
  whole := Nat.toDigits 10 (n.natAbs / 2)
  fraction := some [if n.natAbs % 2 = 0 then '0' else '5']
  exponent := none

end Numeral

/-- A JSON value. A text or key is absent where it holds an unpaired surrogate escape, since it
then is no text. -/
inductive Json
  | null
  | bool (value : Bool)
  | number (value : Numeral)
  | string (text : Option String)
  | array (items : List Json)
  | object (members : List (Option String × Json))
  deriving Inhabited

namespace Json

def text (value : String) : Json := string (some value)

def nat (n : Nat) : Json := number (.ofNat n)

def int (n : Int) : Json := number (.ofInt n)

/-- An object with the given members, in order. -/
def ofMembers (members : List (String × Json)) : Json :=
  object (members.map fun (key, value) => (some key, value))

end Json

end CircuitScript
