import CircuitScript.Expr.Simplify
import CircuitScript.Script.Node
/-!
Expressions as combinators: arithmetic becomes a list of steps over scratch signals, conditions
become trees of comparisons. The signals in `avoid` are never used as scratch signals.
-/
namespace CircuitScript

namespace Expr

/-- What a step reads for an operand: the scratch signal that holds it, or the leaf itself. -/
def operand (held : Option String) (expr : Expr) : Except Error Operand :=
  match held, expr with
  | some temp, _ => .ok (.signal temp)
  | none, literal value => .ok (.constant value.toInt32)
  | none, name signal => .ok (.signal signal)
  | none, _ => .error (.structural .unaryLeft none)

/-- A scratch signal for an operand that takes steps of its own. -/
def holder (avoid : NameSet) (expr : Expr) : Scratch (Option String) :=
  if expr.isBinary then some <$> Scratch.fresh avoid else pure none

/-- Steps that compute an arithmetic expression. The last one writes `out`; both operands of a node
have their scratch signals before the steps of either begin. -/
def steps (avoid : NameSet) (expr : Expr) (out : String) : Scratch (List Step) :=
  match expr with
  | binary op left right _ => do
    let some arith := op.arith? | throw (.structural (.conditionOnly op) none)
    let leftHeld ← left.holder avoid
    let rightHeld ← right.holder avoid
    let leftSteps ←
      match leftHeld with
      | some temp => steps avoid left temp
      | none => pure []
    let rightSteps ←
      match rightHeld with
      | some temp => steps avoid right temp
      | none => pure []
    let first ← left.operand leftHeld
    let second ← right.operand rightHeld
    return leftSteps ++ rightSteps ++ [⟨first, arith, second, out⟩]
  | leaf => do
    let value ← leaf.operand none
    return [⟨value, .add, .constant 0, out⟩]

end Expr

/-- The factor `k` of a step `target * k` or `k * target` that writes `target`. -/
def Step.scale? (step : Step) (target : String) : Option Int32 :=
  if step.op = .mul ∧ step.out = target then
    match step.left, step.right with
    | .signal name, .constant k | .constant k, .signal name =>
      if name = target then some k else none
    | _, _ => none
  else none

/-- The members of an assignment, given the steps that compute its value: every signal is
forwarded, the value added and the old value cancelled. Scaling a signal by `k` adds `k - 1` times
the old value instead. -/
def assignmentBody (target : String) (steps : List Step) (scope : Scope) : List Node :=
  let scale :=
    match steps with
    | [step] => step.scale? target
    | _ => none
  match scale with
  | some k =>
    [.step .passthrough, .series scope [.step ⟨.signal target, .mul, .constant (k - 1), target⟩]]
  | none =>
    [.step .passthrough, .series scope (steps.map .step),
      .step ⟨.signal target, .mul, .constant (-1), target⟩]

/-- The construct for `target = expr`. -/
def assignment (target : String) (expr : Expr) (parent : Scope) : Except Error Node :=
  let expr := expr.simplify parent.aliases .arithmetic
  match (expr.steps (expr.names.insert target) target).runIn parent with
  | (.ok steps, scope) => .ok (.parallel parent (assignmentBody target steps scope))
  | (.error error, _) => .error error

namespace Expr

/-- One side of a comparison. -/
def side (avoid : NameSet) (expr : Expr) : Scratch Side :=
  match expr with
  | literal value => return .value (.constant value.toInt32)
  | name signal => return .value (.signal signal)
  | binary op .. => do
    if op.tier = .arithmetic then
      let temp ← Scratch.fresh avoid
      let steps ← expr.steps avoid temp
      return .series (← get) (steps.map .step)
    else throw (.structural (.notOperand op) none)
  | unary .. => throw (.structural .unaryLeft none)

/-- A comparison that writes one to `out` when it holds. A decider compares a signal first, so a
constant on the left changes places with what is no constant. -/
def comparison (avoid : NameSet) (out : String) (op : Comparator) (negated : Bool)
    (left right : Expr) : Scratch Node := do
  let swap := left.isLiteral && !right.isLiteral
  let first ← (if swap then right else left).side avoid
  let second ← (if swap then left else right).side avoid
  return .compare (if swap then op.swapped else op) negated first second out

/-- The construct for a logical operator over its members. -/
def group (op : BinaryOp) (negated : Bool) (body : List Node) (out : String) : Node :=
  match op with
  | .and => .and negated body out
  | _ => .or negated body out

/-- The construct for a truth value that is no logical node. A bare value means that it is not
zero. -/
def testNode (avoid : NameSet) (out : String) (expr : Expr) : Scratch Node :=
  match expr with
  | binary op left right negated =>
    if op.tier = .relational then
      match op.comparator? with
      | some comparator => comparison avoid out comparator negated left right
      | none => throw (.structural (.notNormalized op) none)
    else comparison avoid out .eq true expr (int 0)
  | other => comparison avoid out .eq true other (int 0)

/-- The members that a truth value contributes to a group of operator `parent`: a group of the same
operator that is not negated contributes its own members. -/
def members (avoid : NameSet) (out : String) (parent : BinaryOp) (expr : Expr) :
    Scratch (List Node) :=
  match expr with
  | binary op left right negated => do
    if op.tier = .logical then
      let leftNodes ← members avoid out op left
      let rightNodes ← members avoid out op right
      let body := leftNodes ++ rightNodes
      if parent = op ∧ negated = false then return body
      else return [group op negated body out]
    else return [← testNode avoid out (binary op left right negated)]
  | leaf => return [← testNode avoid out leaf]

/-- The construct for a truth value. -/
def conditionNode (avoid : NameSet) (out : String) (expr : Expr) : Scratch Node :=
  match expr with
  | binary op left right negated => do
    if op.tier = .logical then
      let leftNodes ← members avoid out op left
      let rightNodes ← members avoid out op right
      return group op negated (leftNodes ++ rightNodes) out
    else testNode avoid out (binary op left right negated)
  | leaf => testNode avoid out leaf

/-- The construct for a condition, and the signal to which it writes one when the condition holds.
A condition that is decided beforehand is an error. -/
def condition (expr : Expr) : Scratch (Node × String) := do
  let expr := expr.simplify (← get).aliases .logical
  if let some value := expr.literal? then
    throw (.structural (.constantCondition value) none)
  let out ← Scratch.fresh expr.names
  return (← conditionNode expr.names out expr, out)

end Expr

end CircuitScript
