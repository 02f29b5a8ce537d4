import CircuitScript.Blueprint.Basic
/-!
A layout in the making. Every construct is laid out in a frame, along a direction, and leaves its
entities in one draft. Beside what is built, the draft keeps what was asked for: the routes, the
feeds that each combinator was placed with, and what happened to the slots of gates.
-/
namespace CircuitScript.Layout

/-- What a combinator takes its input from. -/
inductive Feed
  | entity (id : EntityId)
  /-- The gate of an enclosing conditional, known by its slot; it collects its readers. -/
  | request (slot : Nat)
  deriving DecidableEq, Repr, Inhabited

/-- The entities among some feeds. -/
def Feed.entities (feeds : List Feed) : List EntityId :=
  feeds.filterMap fun
    | entity id => some id
    | request _ => none

/-- Where and how one construct is laid out. -/
structure Frame where
  start : Position
  /-- The way in which the construct grows. -/
  direction : Position
  /-- The direction that its combinators face. -/
  rotation : Nat
  inColor : Color
  outColor : Color
  /-- How deep the construct is nested. -/
  depth : Nat
  /-- What the construct reads. -/
  feeds : List Feed
  deriving DecidableEq, Repr, Inhabited

namespace Frame

/-- The frame of a construct that is in no other. -/
def outermost (start : Position) : Frame := ⟨start, ⟨1, 0⟩, 0, .green, .red, 1, []⟩

/-- The frame of a member that starts at a tile. Its colours are swapped, unless the member stays
on the network of its owner; a turned member grows across its owner. -/
def inner (frame : Frame) (start : Position) (feeds : List Feed) (turned staysOn : Bool) :
    Frame where
  start
  direction := if turned then frame.direction.turnLeft else frame.direction
  rotation := if turned then (if frame.rotation = 0 then 2 else 0) else frame.rotation
  inColor := frame.outColor
  outColor := if staysOn then frame.outColor else frame.outColor.opposite
  depth := frame.depth + 1
  feeds

end Frame

/-- A wire that was asked for in the frame of some construct, and the relays that it goes over, from
one terminal to the other. -/
structure Route where
  frame : Frame
  first : Terminal
  second : Terminal
  color : Color
  relays : List EntityId
  deriving DecidableEq, Repr, Inhabited

/-- A combinator and the feeds it was placed with. -/
structure Placement where
  id : EntityId
  feeds : List Feed
  deriving DecidableEq, Repr, Inhabited

/-- What happens to the slots of gates. -/
inductive SlotEvent
  /-- A combinator reads the gate in a slot, while some slots are open. -/
  | asked (slot : Nat) (reader : EntityId) (slots : Nat)
  /-- A slot is closed, and gives its readers. -/
  | closed (slot : Nat) (readers : List EntityId)
  deriving DecidableEq, Repr, Inhabited

structure Draft where
  blueprint : Blueprint
  /-- For each open conditional, from the outermost, the combinators that read its gate. -/
  requests : Array (List EntityId)
  /-- How far the current construct has grown. -/
  grown : Int
  /-- The relays that the current construct has set up for its routes. -/
  poles : List EntityId
  /-- What was noticed, the latest first. -/
  events : List Event
  /-- The routes that were asked for, the latest first. -/
  routes : List Route
  /-- The combinators that were placed, the latest first. -/
  placements : List Placement
  /-- What happened to the slots, the latest first. -/
  slotEvents : List SlotEvent
  deriving DecidableEq, Repr, Inhabited

def Draft.empty : Draft := ⟨.empty, #[], 0, [], [], [], [], []⟩

/-- An action on a draft. -/
abbrev Build := StateM Draft

/-- Adds to the events. -/
def report (events : List Event) : Build Unit :=
  modify fun draft => { draft with events := events.reverse ++ draft.events }

/-- The tile that the current construct has grown to. -/
def here (frame : Frame) : Build Position :=
  return frame.start + frame.direction.scale (← get).grown

/-- Where an entity stands. -/
def positionOf (id : EntityId) : Build Position :=
  return match (← get).blueprint.entity? id with
    | some entity => entity.position
    | none => .origin

/-- Some entity among the feeds is a relay. -/
def readsRelay (feeds : List Feed) : Build Bool := do
  let blueprint := (← get).blueprint
  return (Feed.entities feeds).any blueprint.isRelay

/-- Puts an entity on a tile. -/
def put (kind : Kind) (tile : Position) : Build EntityId := do
  let (id, blueprint, events) := (← get).blueprint.create kind tile
  modify fun draft => { draft with blueprint }
  report events
  return id

/-- Turns an entity. -/
def face (id : EntityId) (direction : Nat) : Build Unit := do
  let (blueprint, events) := (← get).blueprint.turn id direction
  modify fun draft => { draft with blueprint }
  report events

/-- Gives an entity its payload. -/
def load (id : EntityId) (condition : Condition) : Build Unit :=
  modify fun draft => { draft with blueprint := draft.blueprint.configure id condition }

/-- Draws one wire. -/
def link (source target : Terminal) (color : Color) : Build Unit :=
  modify fun draft =>
    { draft with
      blueprint :=
        (draft.blueprint.connect source.entity source.side target.entity target.side color).2 }

/-- Lets the current construct grow. -/
def grow (amount : Int) : Build Unit :=
  modify fun draft => { draft with grown := draft.grown + amount }

/-- Notes a reader of the gate in a slot. -/
def request (slot : Nat) (id : EntityId) : Build Unit :=
  modify fun draft =>
    { draft with
      requests := draft.requests.modify slot (· ++ [id])
      slotEvents := .asked slot id draft.requests.size :: draft.slotEvents }

/-- Opens a slot for the readers of a gate. -/
def openSlot : Build Nat := do
  let slot := (← get).requests.size
  modify fun draft => { draft with requests := draft.requests.push [] }
  return slot

/-- Closes the slot that was opened last, and gives its readers. -/
def closeSlot : Build (List EntityId) := do
  let readers := (← get).requests.back?.getD []
  modify fun draft =>
    { draft with
      requests := draft.requests.pop
      slotEvents := .closed (draft.requests.size - 1) readers :: draft.slotEvents }
  return readers

end CircuitScript.Layout
