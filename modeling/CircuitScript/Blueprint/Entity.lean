import CircuitScript.Blueprint.Position
import CircuitScript.Signal
/-!
Entities, the tiles they cover and the wires between their terminals.
-/
namespace CircuitScript

inductive Kind
  | relay | arithmetic | decider
  deriving DecidableEq, Repr, Inhabited

namespace Kind

/-- The name of a kind in the game. -/
def text : Kind → String
  | relay => "medium-electric-pole"
  | arithmetic => "arithmetic-combinator"
  | decider => "decider-combinator"

def ofText? : String → Option Kind
  | "medium-electric-pole" => some relay
  | "arithmetic-combinator" => some arithmetic
  | "decider-combinator" => some decider
  | _ => none

/-- Width and height. A combinator is two tiles long and lies along its direction, of which there
are eight to a full turn. -/
def footprint (kind : Kind) (direction : Nat) : Int × Int :=
  match kind with
  | relay => (1, 1)
  | arithmetic | decider => if direction % 4 = 2 then (2, 1) else (1, 2)

end Kind

/-- The kind of combinator that a payload needs. -/
def Condition.kind : Condition → Kind
  | arithmetic .. => .arithmetic
  | decider .. => .decider

inductive Color
  | red | green
  deriving DecidableEq, Repr, Inhabited

namespace Color

def opposite : Color → Color
  | red => green
  | green => red

def text : Color → String
  | red => "red"
  | green => "green"

def rank : Color → Nat
  | red => 0
  | green => 1

end Color

/-- The two ends of a combinator. A relay has only its input. -/
inductive End
  | input | output
  deriving DecidableEq, Repr, Inhabited

namespace End

/-- The number of an end in the game. -/
def circuitId : End → Nat
  | input => 1
  | output => 2

/-- Every number but two means the input. -/
def ofCircuitId (id : Nat) : End := if id = 2 then output else input

def rank : End → Nat
  | input => 0
  | output => 1

end End

/-- An entity is known by its place in the order of creation. -/
abbrev EntityId := Nat

structure Entity where
  id : EntityId
  kind : Kind
  /-- The top left tile. -/
  position : Position
  direction : Nat
  condition : Option Condition
  deriving DecidableEq, Repr, Inhabited

/-- The tiles of a rectangle, column by column. -/
def rectangle (corner : Position) (size : Int × Int) : List Position :=
  (List.range size.1.toNat).flatMap fun dx =>
    (List.range size.2.toNat).map fun dy => corner + ⟨dx, dy⟩

namespace Entity

/-- The tiles that an entity covers. -/
def tiles (entity : Entity) : List Position :=
  rectangle entity.position (entity.kind.footprint entity.direction)

def text (entity : Entity) : String :=
  "#" ++ toString (entity.id + 1) ++ " " ++ entity.kind.text ++ " at " ++ entity.position.text ++
    " dir " ++ toString entity.direction ++
    (match entity.condition with
      | some condition => ": " ++ condition.text
      | none => "")

end Entity

structure Terminal where
  entity : EntityId
  side : End
  deriving DecidableEq, Repr, Inhabited

namespace Terminal

def key (terminal : Terminal) : List Nat := [terminal.entity, terminal.side.rank]

def text (terminal : Terminal) : String :=
  "#" ++ toString (terminal.entity + 1) ++ "." ++ toString terminal.side.circuitId

end Terminal

/-- An undirected wire, from its smaller terminal to its greater one. -/
structure Wire where
  a : Terminal
  b : Terminal
  color : Color
  deriving DecidableEq, Repr, Inhabited

namespace Wire

/-- The wire between two terminals. -/
def between (first second : Terminal) (color : Color) : Wire :=
  if first.key < second.key then ⟨first, second, color⟩ else ⟨second, first, color⟩

/-- Wires are listed by their terminals, red before green. -/
def key (wire : Wire) : List Nat := wire.a.key ++ wire.b.key ++ [wire.color.rank]

def text (wire : Wire) : String :=
  wire.color.text ++ " wire " ++ wire.a.text ++ " <-> " ++ wire.b.text

end Wire

end CircuitScript
