import CircuitScript.Layout.Route
import CircuitScript.Script.Node
/-!
Placing combinators: single ones, and the gate of a conditional.
-/
namespace CircuitScript.Layout

/-- Lets a combinator read a feed. Relays are read over red wires, combinators over green ones. -/
def readFeed (frame : Frame) (id : EntityId) : Feed → Build Unit
  | .request slot => request slot id
  | .entity other => do
    let color := if (← get).blueprint.isRelay other then .red else .green
    route frame ⟨id, .input⟩ ⟨other, .output⟩ color

/-- Places a combinator where the construct has grown to, and lets it read some feeds. -/
def place (frame : Frame) (condition : Condition) (feeds : List Feed) : Build EntityId := do
  let id ← put condition.kind (← here frame)
  face id frame.rotation
  load id condition
  modify fun draft => { draft with placements := ⟨id, feeds⟩ :: draft.placements }
  feeds.forM (readFeed frame id)
  grow 1
  return id

/-- Lays out a member in a frame of its own. The construct then goes on behind the member: where the
member has grown to, or for a turned member behind all that it has put down. -/
def descend (frame : Frame) (feeds : List Feed) (turned staysOn : Bool)
    (build : Frame → Build (List EntityId)) : Build (List EntityId) := do
  let origin ← here frame
  let outer ← get
  set { outer with grown := 0, poles := [] }
  let ends ← build (frame.inner origin feeds turned staysOn)
  let inner ← get
  let advance :=
    if turned then inner.blueprint.extentSince outer.blueprint.size origin frame.direction
    else inner.grown
  set { inner with grown := outer.grown + advance, poles := outer.poles }
  return ends

/-- The decider that turns the result of another one around. -/
def negation (out : String) : Condition := .decider (.signal out) .eq (.constant 0) out false

/-- The decider for a count of members that hold: all of them for a conjunction, some of them for a
disjunction, or the opposite. -/
def threshold (conjunction negated : Bool) (size : Nat) (out : String) : Condition :=
  let (op, bound) : Comparator × Nat :=
    match conjunction, negated with
    | true, false => (.eq, size)
    | true, true => (.lt, size)
    | false, false => (.gt, 0)
    | false, true => (.eq, 0)
  .decider (.signal out) op (.constant (.ofNat bound)) out false

/-- The payload that takes away one signal, or each. -/
def subtraction (signal : String) : Condition :=
  .arithmetic (.signal signal) .mul (.constant (-1)) signal

/-- The payload that lets a signal, or everything, through while the test holds. -/
def testing (out passed : String) : Condition :=
  .decider (.signal out) .eq (.constant 1) passed true

/-- Places and wires the gate behind the test and the body of a conditional, and gives the entity
that later constructs read. `last` are the ends of the body and `readers` the combinators that read
the gate. -/
def placeGate (frame : Frame) (loops : Bool) (out : String) (test last readers : List EntityId) :
    Build EntityId := do
  let subtractAll ← place frame (subtraction each) frame.feeds
  let testOut ← place frame (testing out out) []
  let subtractOut ← place frame (subtraction out) [.entity testOut]
  let oneWay ← place frame Step.passthrough.condition []
  let testAll ← place frame (testing out everything) []
  let back := if loops then Color.green else .red
  routeAll frame ⟨subtractAll, .output⟩ last .output .red
  route frame ⟨subtractOut, .output⟩ ⟨testAll, .output⟩ back
  route frame ⟨subtractAll, .output⟩ ⟨testAll, .input⟩ .red
  route frame ⟨subtractAll, .input⟩ ⟨oneWay, .input⟩ .red
  unless loops do
    route frame ⟨oneWay, .output⟩ ⟨testAll, .output⟩ .red
  routeAll frame ⟨testOut, .input⟩ test .output frame.outColor
  route frame ⟨testOut, .input⟩ ⟨testAll, .input⟩ frame.outColor
  if loops then
    routeAll frame ⟨testAll, .output⟩ readers .input back
    routeAll frame ⟨testAll, .output⟩ test .input .red
  return if loops then oneWay else testAll

end CircuitScript.Layout
