import CircuitScript.Blueprint.Basic
import CircuitScript.Blueprint.Record
import CircuitScript.Error
/-!
Building a blueprint from its description.
-/
namespace CircuitScript

namespace Coordinate

/-- The quotient rounded to the nearest integer, a tie away from zero. -/
def roundHalfUp (num den : Nat) : Nat := (2 * num + den) / (2 * den)

/-- A floating point number rounded to the nearest integer, a tie away from zero. -/
def roundToNat : Binary64 → Nat
  | .finite mantissa exponent =>
    let (num, den) := Binary64.fraction mantissa exponent
    roundHalfUp num den
  | .infinite => 2147483648

/-- The nearest integer that 32 bits hold. -/
def clamp (n : Int) : Int := max (-2147483648) (min n 2147483647)

/-- The first tile of an entity that is `size` tiles long and has its middle at the coordinate. The
difference is a floating point number, and so rounded, before it is rounded to a tile. -/
def firstTile (coordinate : Coordinate) (size : Int) : Int :=
  match coordinate.magnitude with
  | .infinite => clamp (if coordinate.negative then -2147483648 else 2147483647)
  | .finite mantissa exponent =>
    let (num, den) := Binary64.fraction mantissa exponent
    let value : Int := if coordinate.negative then -num else num
    let difference := 2 * value - size * den
    let rounded := roundToNat (.nearest difference.natAbs (2 * den))
    clamp (if difference < 0 then -rounded else rounded)

end Coordinate

/-- A signal if one is given, else a constant, which is zero by default. -/
def Operand.ofRecord (signal : Option SignalId) (constant : Option Int32) : Operand :=
  match signal with
  | some id => .signal (SignalId.toName id.name)
  | none => .constant (constant.getD 0)

def ArithmeticRecord.condition (record : ArithmeticRecord) : Except Error Condition :=
  match Arith.ofText? record.operation with
  | some op => .ok <| .arithmetic (.ofRecord record.firstSignal record.firstConstant) op
      (.ofRecord record.secondSignal record.secondConstant) (SignalId.toName record.output.name)
  | none => .error (.blueprint (.operation record.operation))

def DeciderRecord.condition (record : DeciderRecord) : Except Error Condition :=
  match Comparator.ofText? record.comparator with
  | some op => .ok <| .decider (.signal (SignalId.toName record.first.name)) op
      (.ofRecord record.secondSignal record.constant) (SignalId.toName record.output.name)
      record.counting
  | none => .error (.blueprint (.comparator record.comparator))

/-- The payload of a record; arithmetic goes before a decision. -/
def ControlRecord.condition (record : ControlRecord) : Except Error Condition :=
  match record.arithmetic, record.decider with
  | some arithmetic, _ => arithmetic.condition
  | none, some decider => decider.condition
  | none, none => .error (.blueprint .noCondition)

/-- The side that a key of the connections names. Only the number two is the output. -/
def End.ofKey (key : String) : End :=
  let digits :=
    match key.toList with
    | '+' :: rest => rest
    | chars => chars
  if digits.all Char.isDigit && digits.foldl (fun n c => 10 * n + (c.toNat - '0'.toNat)) 0 == 2
  then .output else .input

namespace Blueprint

/-- A blueprint that is being built, with the entity of each number and the events so far. -/
structure Assembly where
  blueprint : Blueprint
  /-- The entity of a number; of two with one number the later is meant. -/
  numbers : List (Nat × EntityId)
  events : List Event

/-- Adds the entity of a record. -/
def Assembly.add (assembly : Assembly) (record : EntityRecord) : Except Error Assembly := do
  let some kind := Kind.ofText? record.name | throw (.blueprint (.unknownEntity record.name))
  let (width, height) := kind.footprint record.direction
  let (id, blueprint, created) :=
    assembly.blueprint.create kind ⟨record.x.firstTile width, record.y.firstTile height⟩
  let (blueprint, turned) := blueprint.turn id record.direction
  let blueprint ←
    match record.control with
    | some control => pure (blueprint.configure id (← control.condition))
    | none => pure blueprint
  return ⟨blueprint, (record.number, id) :: assembly.numbers, assembly.events ++ created ++ turned⟩

/-- Wires one side of an entity to a list of points. -/
def wireTo (numbers : List (Nat × EntityId)) (id : EntityId) (side : End) (color : Color)
    (blueprint : Blueprint) (points : List PointRecord) : Except Error Blueprint :=
  points.foldlM (fun blueprint point =>
    match numbers.lookup point.entity with
    | some target =>
      .ok (blueprint.connect id side target (.ofCircuitId (point.circuit.getD 1)) color).2
    | none => .error (.blueprint (.missingEntity point.entity))) blueprint

/-- Wires the entity of a record, side by side, red before green. -/
def wireRecord (numbers : List (Nat × EntityId)) (blueprint : Blueprint) (record : EntityRecord) :
    Except Error Blueprint :=
  match numbers.lookup record.number with
  | none => .ok blueprint
  | some id =>
    record.connections.entries.foldlM (fun blueprint (key, connection) => do
      let side := End.ofKey key
      let blueprint ← wireTo numbers id side .red blueprint connection.red
      wireTo numbers id side .green blueprint connection.green) blueprint

/-- The blueprint of a description, and what was noticed on the way. All entities stand before the
first wire is drawn. -/
def ofRecord (record : BlueprintRecord) : Except Error (Blueprint × List Event) := do
  let assembly ← record.entities.foldlM Assembly.add ⟨.empty, [], []⟩
  let blueprint ← record.entities.foldlM (wireRecord assembly.numbers) assembly.blueprint
  return ({ blueprint with label := record.label }, assembly.events)

end Blueprint

end CircuitScript
