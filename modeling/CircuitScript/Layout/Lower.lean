import CircuitScript.Layout.Place
/-!
Laying out programs. Every construct gives its ends: the entities whose results the next construct
reads.
-/
namespace CircuitScript

namespace Node

/-- The word for a construct in the log. -/
def construct : Node → String
  | chain .. => "chain"
  | parallel .. => "parallel"
  | series .. => "series"
  | conditional loops .. => if loops then "while" else "if"
  | compare .. => "compare"
  | and .. => "and"
  | or .. => "or"
  | step _ => "variable"

end Node

namespace Layout

/-- What the members of a body read. -/
inductive Flow
  /-- Each reads the member before it, the first one the given feeds. -/
  | chained (first : List Feed)
  /-- All read the same feeds. -/
  | shared (feeds : List Feed)
  /-- All read the same feeds, and each reads the members before it. -/
  | series (feeds : List Feed)
  deriving DecidableEq, Repr, Inhabited

namespace Flow

/-- What the next member reads, the members before it not counted. -/
def feeds : Flow → List Feed
  | chained feeds | shared feeds | series feeds => feeds

/-- The flow behind a member with the given ends. -/
def behind (ends : List EntityId) : Flow → Flow
  | chained _ => chained (ends.map .entity)
  | flow => flow

/-- What later members read beside their feeds. -/
def carried (ends : List EntityId) : Flow → List EntityId
  | series _ => ends
  | _ => []

end Flow

/-- Reports that a construct is laid out. -/
def announce (frame : Frame) (node : Node) : Build Unit :=
  report [.lowering node.construct frame.depth frame.inColor frame.outColor]

mutual

/-- Lays out a construct in its frame. -/
def lower (frame : Frame) (node : Node) : Build (List EntityId) := do
  announce frame node
  match node with
  | .step step => return [← place frame step.condition frame.feeds]
  | .series _ body => return (← lowerBody frame (.series frame.feeds) [] body).getLast?.getD []
  | .parallel _ body => return (← lowerBody frame (.shared frame.feeds) [] body).flatten
  | .chain _ body =>
    let head ← put .relay (frame.start - frame.direction)
    let ends ← lowerBody frame (.chained [.entity head]) [] body
    let tail ← put .relay (← here frame)
    routeAll frame ⟨tail, .input⟩ (ends.getLast?.getD [head]) .output .red
    return [tail]
  | .compare op negated left right out =>
    let leftEnds ← lowerSide frame left
    let rightEnds ← lowerSide frame right
    let decider ← place frame (.decider left.operand op right.operand out false)
      (frame.feeds ++ (leftEnds ++ rightEnds).map .entity)
    if negated then return [← place frame (negation out) [.entity decider]]
    else return [decider]
  | .and negated body out =>
    let ends ← lowerMembers frame body
    return [← place frame (threshold true negated body.length out) (ends.map .entity)]
  | .or negated body out =>
    let ends ← lowerMembers frame body
    return [← place frame (threshold false negated body.length out) (ends.map .entity)]
  | .conditional loops _ test out body =>
    let testEnds ← descend frame frame.feeds true false fun inner => lower inner test
    let slot ← openSlot
    let ends ← lowerBody frame (.shared (frame.feeds ++ [.request slot])) [] body
    let readers ← closeSlot
    return [← placeGate frame loops out testEnds (ends.getLast?.getD []) readers]

/-- Lays out the members of a body and gives the ends of each. A step stands in the frame of its
body; the results carried over from earlier members reach it over the colour that its feeds leave
free. -/
def lowerBody (frame : Frame) (flow : Flow) (carried : List EntityId) :
    List Node → Build (List (List EntityId))
  | [] => return []
  | .step step :: rest => do
    let id ← place frame step.condition flow.feeds
    let color := if ← readsRelay frame.feeds then Color.green else .red
    routeAll frame ⟨id, .input⟩ carried .output color
    return [id] :: (← lowerBody frame (flow.behind [id]) (carried ++ flow.carried [id]) rest)
  | node :: rest => do
    let ends ← descend frame (flow.feeds ++ carried.map .entity) false false
      fun inner => lower inner node
    return ends :: (← lowerBody frame (flow.behind ends) (carried ++ flow.carried ends) rest)

/-- Lays out the members of a conjunction or disjunction and gives all their ends. -/
def lowerMembers (frame : Frame) : List Node → Build (List EntityId)
  | [] => return []
  | node :: rest => do
    let ends ← descend frame frame.feeds false false fun inner => lower inner node
    return ends ++ (← lowerMembers frame rest)

/-- Lays out a side of a comparison, on the network of the comparison. A value needs no entity. -/
def lowerSide (frame : Frame) : Side → Build (List EntityId)
  | .value _ => return []
  | .series _ body =>
    descend frame frame.feeds false true fun inner =>
      return (← lowerBody inner (.series inner.feeds) [] body).getLast?.getD []

end

/-- Lays out the constructs of a program below each other, with room for their lanes. -/
def lowerAll : List Node → Build (List EntityId)
  | [] => return []
  | node :: rest => do
    let start : Position :=
      match (← get).blueprint.bounds? with
      | some (_, high) => ⟨0, high.y + node.depth + 2⟩
      | none => .origin
    modify fun draft => { draft with grown := 0, poles := [] }
    let ends ← lower (.outermost start) node
    return ends ++ (← lowerAll rest)

end Layout

/-- A program laid out. -/
structure Lowering where
  blueprint : Blueprint
  /-- The ends of all top-level constructs. -/
  outputs : List EntityId
  events : List Event
  deriving Repr, Inhabited

namespace Script

/-- The draft in which a program is laid out, and the ends of its constructs. -/
def draft (script : Script) : List EntityId × Layout.Draft :=
  (Layout.lowerAll script.body).run .empty

def lower (script : Script) : Lowering :=
  let (outputs, draft) := script.draft
  ⟨draft.blueprint, outputs, draft.events.reverse⟩

end Script

end CircuitScript
