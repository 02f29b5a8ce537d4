import CircuitScript.Blueprint.Grid
import CircuitScript.Event
/-!
Blueprints: entities in order of creation, the tiles they stand on, and their wires.
-/
namespace CircuitScript

structure Blueprint where
  entities : Array Entity
  /-- Wires in ascending order, each once. -/
  wires : List Wire
  grid : Grid
  label : Option String
  deriving DecidableEq, Repr, Inhabited

namespace Blueprint

def empty : Blueprint := ⟨#[], [], .empty, none⟩

def size (blueprint : Blueprint) : Nat := blueprint.entities.size

def entity? (blueprint : Blueprint) (id : EntityId) : Option Entity := blueprint.entities[id]?

/-- The entity that is found on a tile. -/
def find? (blueprint : Blueprint) (tile : Position) : Option EntityId := blueprint.grid.find? tile

/-- Puts an entity on some tiles, and reports those on which another one is found. -/
def occupy (grid : Grid) (id : EntityId) : List Position → Grid × List Event
  | [] => (grid, [])
  | tile :: rest =>
    let reports :=
      match grid.find? tile with
      | some other => if other = id then [] else [.overlap tile id other]
      | none => []
    let (grid, more) := occupy (grid.insert tile id) id rest
    (grid, reports ++ more)

/-- A new entity, which faces the first direction. -/
def create (blueprint : Blueprint) (kind : Kind) (position : Position) :
    EntityId × Blueprint × List Event :=
  let entity : Entity := ⟨blueprint.size, kind, position, 0, none⟩
  let (grid, events) := occupy blueprint.grid entity.id entity.tiles
  (entity.id, { blueprint with entities := blueprint.entities.push entity, grid := grid }, events)

/-- Turns an entity to one of the eight directions. -/
def turn (blueprint : Blueprint) (id : EntityId) (direction : Nat) : Blueprint × List Event :=
  match blueprint.entity? id with
  | none => (blueprint, [])
  | some entity =>
    let turned := { entity with direction := direction % 8 }
    let freed := blueprint.grid.release id entity.tiles
    let (grid, events) := occupy freed id turned.tiles
    ({ blueprint with entities := blueprint.entities.setIfInBounds id turned, grid }, events)

/-- Configures an entity. -/
def configure (blueprint : Blueprint) (id : EntityId) (condition : Condition) : Blueprint :=
  match blueprint.entity? id with
  | none => blueprint
  | some entity =>
    { blueprint with
      entities := blueprint.entities.setIfInBounds id { entity with condition := some condition } }

def isRelay (blueprint : Blueprint) (id : EntityId) : Bool :=
  (blueprint.entity? id).any fun entity => entity.kind == .relay

/-- The terminal of an entity on a side; a relay has only one. -/
def terminal (blueprint : Blueprint) (id : EntityId) (side : End) : Terminal :=
  ⟨id, if blueprint.isRelay id then .input else side⟩

/-- Puts a wire into its place in an ascending list, once. -/
def placeWire (wire : Wire) : List Wire → List Wire
  | [] => [wire]
  | other :: rest =>
    if wire = other then other :: rest
    else if wire.key < other.key then wire :: other :: rest
    else other :: placeWire wire rest

/-- Wires two terminals, and says whether the wire is new. No terminal is wired to itself. -/
def connect (blueprint : Blueprint) (fromId : EntityId) (fromSide : End) (toId : EntityId)
    (toSide : End) (color : Color) : Bool × Blueprint :=
  let first := blueprint.terminal fromId fromSide
  let second := blueprint.terminal toId toSide
  let wire := Wire.between first second color
  if first = second ∨ wire ∈ blueprint.wires then (false, blueprint)
  else (true, { blueprint with wires := placeWire wire blueprint.wires })

/-- Every tile that is covered, by entity. -/
def tiles (blueprint : Blueprint) : List Position := blueprint.entities.toList.flatMap Entity.tiles

/-- The first tile of the smallest rectangle around all entities, and the tile beyond its last. -/
def bounds? (blueprint : Blueprint) : Option (Position × Position) :=
  match blueprint.tiles with
  | [] => none
  | first :: rest =>
    let low := rest.foldl (fun a tile => ⟨min a.x tile.x, min a.y tile.y⟩) first
    let high := rest.foldl (fun a tile => ⟨max a.x tile.x, max a.y tile.y⟩) first
    some (low, high + ⟨1, 1⟩)

/-- How far the entities created since `first` reach along a direction, from `origin`. -/
def extentSince (blueprint : Blueprint) (first : EntityId) (origin direction : Position) : Int :=
  ((blueprint.entities.toList.drop first).flatMap Entity.tiles).foldl
    (fun reach tile => max reach ((tile - origin).along direction + 1)) 0

/-- Moves all entities so that the middle of the blueprint is the origin. -/
def center (blueprint : Blueprint) : Blueprint :=
  match blueprint.bounds? with
  | none => blueprint
  | some (low, high) =>
    let shift : Position := ⟨-((low.x + high.x) / 2), -((low.y + high.y) / 2)⟩
    { blueprint with
      entities := blueprint.entities.map fun entity =>
        { entity with position := entity.position + shift }
      grid := blueprint.grid.shift shift }

def withLabel (blueprint : Blueprint) (label : String) : Blueprint :=
  { blueprint with label := some label }

/-- One line for each entity and each wire. -/
def listing (blueprint : Blueprint) : List String :=
  blueprint.entities.toList.map Entity.text ++ blueprint.wires.map Wire.text

/-- The listing as a text, every line ended. -/
def text (blueprint : Blueprint) : String := String.join (blueprint.listing.map (· ++ "\n"))

end Blueprint

end CircuitScript
