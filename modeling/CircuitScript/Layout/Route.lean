import CircuitScript.Layout.Draft
/-!
Routes between terminals. A wire reaches only so far along the direction of its construct, so a long
route goes over relays on a lane beside it.
-/
namespace CircuitScript.Layout

/-- How far a wire reaches by the depth of its construct. The deeper a construct, the further out is
its lane, so the less is left for the way along. -/
def reach (depth : Nat) : Nat :=
  match depth with
  | 0 | 1 | 2 | 3 => 7
  | 4 => 6
  | 5 => 5
  | _ => 3

/-- The relay among some entities that stands on a tile. -/
def poleAt? (blueprint : Blueprint) (poles : List EntityId) (tile : Position) : Option EntityId :=
  poles.find? fun pole => (blueprint.entity? pole).any fun entity => entity.position == tile

/-- No relay can be had on a tile, since a combinator is found there. -/
def blocked (blueprint : Blueprint) (poles : List EntityId) (tile : Position) : Bool :=
  (poleAt? blueprint poles tile).isNone &&
    (blueprint.find? tile).any fun id => !blueprint.isRelay id

/-- The first tile that is not blocked, from a tile outward. -/
def firstOpen (blueprint : Blueprint) (poles : List EntityId) (outward : Position) :
    Nat → Position → Position
  | 0, tile => tile
  | n + 1, tile =>
    if blocked blueprint poles tile then firstOpen blueprint poles outward n (tile + outward)
    else tile

/-- The relay on a tile, or the next one outward where a combinator is in the way. A relay that is
there is used again. -/
def relayAt (frame : Frame) (tile : Position) : Build EntityId := do
  let draft ← get
  let blueprint := draft.blueprint
  -- Only tiles that are taken can be blocked, so one step for each of them is enough.
  let tile := firstOpen blueprint draft.poles frame.direction.turnRight
    blueprint.grid.entries.length tile
  match poleAt? blueprint draft.poles tile <|> blueprint.find? tile with
  | some id => return id
  | none =>
    let id ← put .relay tile
    modify fun draft => { draft with poles := draft.poles ++ [id] }
    return id

/-- Wires a terminal over a number of relays, one stride after the other, and gives the relays. -/
def hop (frame : Frame) (color : Color) (stride : Position) :
    Nat → Terminal → Position → Build (List EntityId)
  | 0, _, _ => return []
  | n + 1, anchor, tile => do
    let relay ← relayAt frame tile
    link anchor ⟨relay, .input⟩ color
    let next := (← positionOf relay) + stride
    return relay :: (← hop frame color stride n ⟨relay, .input⟩ next)

/-- Wires two terminals. The way starts at the terminal that is not further right or down, if there
is one, and the first hop goes over to the lane of the construct. -/
def route (frame : Frame) (first second : Terminal) (color : Color) : Build Unit := do
  let delta := (← positionOf second.entity) - (← positionOf first.entity)
  let (source, target) := if delta.x < 0 ∨ delta.y < 0 then (second, first) else (first, second)
  let start ← positionOf source.entity
  let way := ((← positionOf target.entity) - start).along frame.direction
  let stride := frame.direction.scale (reach frame.depth * way.sign)
  let lane := frame.direction.turnRight.scale (frame.depth + 1)
  let relays ← hop frame color stride ((way.natAbs - 1) / reach frame.depth) source
    (start + stride + lane)
  let anchor : Terminal := (relays.getLast?.map (⟨·, .input⟩)).getD source
  link anchor target color
  modify fun draft => { draft with routes := ⟨frame, first, second, color, relays⟩ :: draft.routes }

/-- Wires a terminal to the same side of several entities. -/
def routeAll (frame : Frame) (first : Terminal) (others : List EntityId) (side : End)
    (color : Color) : Build Unit :=
  others.forM fun other => route frame first ⟨other, side⟩ color

end CircuitScript.Layout
