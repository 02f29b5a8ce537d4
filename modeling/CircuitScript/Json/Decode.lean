import CircuitScript.Json.Number
import CircuitScript.Names
/-!
Typed readings of JSON values. A record is an object with its fields in any order, or an array of
them in their own order; fields that are not known are ignored, and one that is known may occur only
once.
-/
namespace CircuitScript.Json

variable {α : Type}

def text? : Json → Option String
  | string text => text
  | _ => none

def bool? : Json → Option Bool
  | bool value => some value
  | _ => none

def number? : Json → Option Numeral
  | number value => some value
  | _ => none

/-- An integer between two bounds, both included. -/
def intWithin? (low high : Int) (json : Json) : Option Int := do
  let value ← (← json.number?).toInt?
  if low ≤ value ∧ value ≤ high then some value else none

/-- A natural number of at most `width` bits. -/
def natWithin? (width : Nat) (json : Json) : Option Nat :=
  (json.intWithin? 0 (Nat.pow 2 width - 1)).map Int.toNat

def int32? (json : Json) : Option Int32 :=
  (json.intWithin? (-2147483648) 2147483647).map Int32.ofInt

def list? (item : Json → Option α) : Json → Option (List α)
  | array items => items.mapM item
  | _ => none

/-- An object as a map; of members with one key the last is kept. -/
def dict? (item : Json → Option α) : Json → Option (Dict α)
  | object members => do
    let entries ← members.mapM fun (key, value) => do some (← key, ← item value)
    some (.ofList entries)
  | _ => none

/-- The members of one key. -/
def valuesOf (key : String) (members : List (Option String × Json)) : List Json :=
  (members.filter fun member => member.1 == some key).map (·.2)

/-- The values of the named fields of a record, each present at most once. -/
def fields? (names : List String) : Json → Option (List (Option Json))
  | object members =>
    if members.any fun member => member.1.isNone then none
    else names.mapM fun name =>
      match valuesOf name members with
      | [] => some none
      | [value] => some (some value)
      | _ => none
  | array items =>
    if names.length < items.length then none
    else some (items.map some ++ List.replicate (names.length - items.length) none)
  | _ => none

/-- A field that must be present. -/
def required (item : Json → Option α) (field : Option Json) : Option α := field.bind item

/-- A field that may be left out. -/
def defaulted (default : α) (item : Json → Option α) : Option Json → Option α
  | none => some default
  | some json => item json

/-- A field that may be left out or null. -/
def optional (item : Json → Option α) : Option Json → Option (Option α)
  | none | some null => some none
  | some json => (item json).map some

end CircuitScript.Json
