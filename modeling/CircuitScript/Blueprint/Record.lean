import CircuitScript.Json.Decode
import CircuitScript.Signal
/-!
The records of a blueprint description, as they are read from JSON.
-/
namespace CircuitScript

/-- One end of a wire: the number of an entity and the side, if it is given. -/
structure PointRecord where
  entity : Nat
  circuit : Option Nat

/-- The wires that leave one side. -/
structure ConnectionRecord where
  red : List PointRecord
  green : List PointRecord

structure ArithmeticRecord where
  firstSignal : Option SignalId
  firstConstant : Option Int32
  secondSignal : Option SignalId
  secondConstant : Option Int32
  operation : String
  output : SignalId

structure DeciderRecord where
  first : SignalId
  secondSignal : Option SignalId
  constant : Option Int32
  comparator : String
  output : SignalId
  counting : Bool

structure ControlRecord where
  arithmetic : Option ArithmeticRecord
  decider : Option DeciderRecord

/-- A coordinate: whether it is negative, and its magnitude. -/
structure Coordinate where
  negative : Bool
  magnitude : Binary64
  deriving DecidableEq, Repr, Inhabited

structure EntityRecord where
  number : Nat
  name : String
  x : Coordinate
  y : Coordinate
  direction : Nat
  control : Option ControlRecord
  connections : Dict ConnectionRecord

structure BlueprintRecord where
  entities : List EntityRecord
  label : Option String

open Json

def SignalId.ofJson? (json : Json) : Option SignalId := do
  let [category, name] ← json.fields? ["type", "name"] | none
  some ⟨← required text? category, ← required text? name⟩

namespace PointRecord

def ofJson? (json : Json) : Option PointRecord := do
  let [entity, circuit] ← json.fields? ["entity_id", "circuit_id"] | none
  some ⟨← required (natWithin? 64) entity, ← optional (natWithin? 8) circuit⟩

end PointRecord

namespace ConnectionRecord

def ofJson? (json : Json) : Option ConnectionRecord := do
  let [red, green] ← json.fields? ["red", "green"] | none
  some ⟨← defaulted [] (list? PointRecord.ofJson?) red,
    ← defaulted [] (list? PointRecord.ofJson?) green⟩

end ConnectionRecord

namespace ArithmeticRecord

def ofJson? (json : Json) : Option ArithmeticRecord := do
  let [firstSignal, firstConstant, secondSignal, secondConstant, operation, output] ← json.fields?
    ["first_signal", "first_constant", "second_signal", "second_constant", "operation",
     "output_signal"] | none
  some
    { firstSignal := ← optional SignalId.ofJson? firstSignal
      firstConstant := ← optional int32? firstConstant
      secondSignal := ← optional SignalId.ofJson? secondSignal
      secondConstant := ← optional int32? secondConstant
      operation := ← required text? operation
      output := ← required SignalId.ofJson? output }

end ArithmeticRecord

namespace DeciderRecord

def ofJson? (json : Json) : Option DeciderRecord := do
  let [first, secondSignal, constant, comparator, output, counting] ← json.fields?
    ["first_signal", "second_signal", "constant", "comparator", "output_signal",
     "copy_count_from_input"] | none
  some
    { first := ← required SignalId.ofJson? first
      secondSignal := ← optional SignalId.ofJson? secondSignal
      constant := ← optional int32? constant
      comparator := ← required text? comparator
      output := ← required SignalId.ofJson? output
      counting := ← defaulted false bool? counting }

end DeciderRecord

namespace ControlRecord

def ofJson? (json : Json) : Option ControlRecord := do
  let [arithmetic, decider] ← json.fields? ["arithmetic_conditions", "decider_conditions"] | none
  some ⟨← optional ArithmeticRecord.ofJson? arithmetic, ← optional DeciderRecord.ofJson? decider⟩

end ControlRecord

namespace Coordinate

def ofJson? (json : Json) : Option Coordinate := do
  let numeral ← json.number?
  some ⟨numeral.negative, ← numeral.toBinary64?⟩

end Coordinate

namespace EntityRecord

def ofJson? (json : Json) : Option EntityRecord := do
  let [number, name, position, direction, control, connections] ← json.fields?
    ["entity_number", "name", "position", "direction", "control_behavior", "connections"] | none
  let [x, y] ← (← position).fields? ["x", "y"] | none
  some
    { number := ← required (natWithin? 64) number
      name := ← required text? name
      x := ← required Coordinate.ofJson? x
      y := ← required Coordinate.ofJson? y
      direction := ← defaulted 0 (natWithin? 8) direction
      control := ← optional ControlRecord.ofJson? control
      connections := ← defaulted .empty (dict? ConnectionRecord.ofJson?) connections }

end EntityRecord

namespace BlueprintRecord

/-- An icon is checked and not kept. -/
def checkIcon? (json : Json) : Option Unit := do
  let [signal, index] ← json.fields? ["signal", "index"] | none
  discard <| required SignalId.ofJson? signal
  discard <| required (natWithin? 32) index

/-- The record inside its envelope. -/
def ofJson? (json : Json) : Option BlueprintRecord := do
  let [content] ← json.fields? ["blueprint"] | none
  let [icons, entities, item, label, version] ← (← content).fields?
    ["icons", "entities", "item", "label", "version"] | none
  discard <| defaulted [] (list? checkIcon?) icons
  discard <| required text? item
  discard <| required (natWithin? 64) version
  some ⟨← defaulted [] (list? EntityRecord.ofJson?) entities, ← optional text? label⟩

end BlueprintRecord

end CircuitScript
