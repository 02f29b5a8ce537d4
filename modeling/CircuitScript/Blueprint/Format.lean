import CircuitScript.Blueprint.Basic
import CircuitScript.Error
import CircuitScript.Json.Basic
/-!
The JSON description of a blueprint: one record for each entity, with its place, payload and wires.
-/
namespace CircuitScript

def SignalId.toJson (id : SignalId) : Json :=
  .ofMembers [("type", .text id.category), ("name", .text id.name)]

/-- The record of a signal. -/
def signalJson (name : String) : Json := (SignalId.ofName name).toJson

namespace Operand

/-- The field of an operand: a signal under one name, a constant under another. -/
def field (signalKey constantKey : String) : Operand → String × Json
  | signal name => (signalKey, signalJson name)
  | constant value => (constantKey, .int value.toInt)

end Operand

/-- The record of a payload. -/
def Condition.toJson : Condition → Except Error Json
  | arithmetic left op right out =>
    .ok <| .ofMembers [("arithmetic_conditions", .ofMembers
      [left.field "first_signal" "first_constant", right.field "second_signal" "second_constant",
       ("operation", .text op.symbol), ("output_signal", signalJson out)])]
  | decider (.constant value) .. => .error (.blueprint (.constantFirst value))
  | decider (.signal first) op right out counting =>
    .ok <| .ofMembers [("decider_conditions", .ofMembers
      [("first_signal", signalJson first), right.field "second_signal" "constant",
       ("comparator", .text op.symbol), ("output_signal", signalJson out),
       ("copy_count_from_input", .bool counting)])]

/-- Where a wire of an entity leads. -/
structure Link where
  side : End
  color : Color
  target : Terminal
  deriving DecidableEq, Repr, Inhabited

/-- The links of an entity along one wire, two if the wire joins its own ends. -/
def Wire.linksOf (wire : Wire) (id : EntityId) : List Link :=
  (if wire.a.entity = id then [⟨wire.a.side, wire.color, wire.b⟩] else []) ++
    (if wire.b.entity = id then [⟨wire.b.side, wire.color, wire.a⟩] else [])

namespace Blueprint

/-- The links of an entity, in the order of the wires. -/
def linksOf (blueprint : Blueprint) (id : EntityId) : List Link :=
  blueprint.wires.flatMap (·.linksOf id)

/-- The record of a link. The side of a relay is not written. -/
def linkJson (blueprint : Blueprint) (target : Terminal) : Except Error Json :=
  match blueprint.entity? target.entity with
  | none => .error (.blueprint (.danglingWire (target.entity + 1)))
  | some entity =>
    let side :=
      if entity.kind = .relay then [] else [("circuit_id", .nat target.side.circuitId)]
    .ok (.ofMembers (("entity_id", .nat (target.entity + 1)) :: side))

/-- The field for the links of one colour, left out if there are none. -/
def colorFields (blueprint : Blueprint) (links : List Link) (color : Color) :
    Except Error (List (String × Json)) := do
  let points ← (links.filter (·.color == color)).mapM fun link => blueprint.linkJson link.target
  return if points.isEmpty then [] else [(color.text, .array points)]

/-- The field for the links of one side, left out if there are none. -/
def sideFields (blueprint : Blueprint) (links : List Link) (side : End) :
    Except Error (List (String × Json)) := do
  let own := links.filter (·.side == side)
  let fields := (← blueprint.colorFields own .red) ++ (← blueprint.colorFields own .green)
  return if own.isEmpty then [] else [(toString side.circuitId, .ofMembers fields)]

/-- The record of an entity. Its position is that of its middle, so it is counted in halves. -/
def entityJson (blueprint : Blueprint) (entity : Entity) : Except Error Json := do
  let links := blueprint.linksOf entity.id
  let connections := (← blueprint.sideFields links .input) ++ (← blueprint.sideFields links .output)
  let control ← entity.condition.mapM Condition.toJson
  let (width, height) := entity.kind.footprint entity.direction
  return .ofMembers <|
    [("entity_number", .nat (entity.id + 1)), ("name", .text entity.kind.text),
     ("position", .ofMembers
       [("x", .number (.ofHalves (2 * entity.position.x + width))),
        ("y", .number (.ofHalves (2 * entity.position.y + height)))])] ++
    (if entity.direction = 0 then [] else [("direction", .nat entity.direction)]) ++
    (match control with
      | some json => [("control_behavior", json)]
      | none => []) ++
    (if connections.isEmpty then [] else [("connections", .ofMembers connections)])

/-- The version of the game that blueprints are written for, as it packs it into a word. -/
def gameVersion : Nat := 281479278886912

/-- The description of a blueprint. -/
def toJson (blueprint : Blueprint) : Except Error Json := do
  let entities ← blueprint.entities.toList.mapM blueprint.entityJson
  let icon := .ofMembers
    [("signal", (SignalId.mk "item" Kind.decider.text).toJson), ("index", .nat 1)]
  return .ofMembers [("blueprint", .ofMembers <|
    [("icons", .array [icon]), ("entities", .array entities), ("item", .text "blueprint")] ++
    (match blueprint.label with
      | some label => [("label", .text label)]
      | none => []) ++
    [("version", .nat gameVersion)])]

end Blueprint

end CircuitScript
