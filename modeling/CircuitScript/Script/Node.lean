import CircuitScript.Scope
/-!
Programs as trees. Steps are the leaves; blocks say how the results of their members meet.
-/
namespace CircuitScript

/-- A single arithmetic assignment `out = left op right`. -/
structure Step where
  left : Operand
  op : Arith
  right : Operand
  out : String
  deriving DecidableEq, Repr, Inhabited

namespace Step

/-- Forwards every signal unchanged. -/
def passthrough : Step := ⟨.signal each, .add, .constant 0, each⟩

def condition (step : Step) : Condition := .arithmetic step.left step.op step.right step.out

end Step

mutual

/-- A construct of a program. The order of a body is the order in which it is wired. -/
inductive Node
  | chain (scope : Scope) (body : List Node)
  | parallel (scope : Scope) (body : List Node)
  | series (scope : Scope) (body : List Node)
  /-- An `if` block, or a `while` block when it loops: the body works while `test` writes one to
  `out`. -/
  | conditional (loops : Bool) (scope : Scope) (test : Node) (out : String) (body : List Node)
  | compare (op : Comparator) (negated : Bool) (left right : Side) (out : String)
  | and (negated : Bool) (body : List Node) (out : String)
  | or (negated : Bool) (body : List Node) (out : String)
  | step (step : Step)

/-- One side of a comparison: a value, or a series that computes it. -/
inductive Side
  | value (operand : Operand)
  | series (scope : Scope) (body : List Node)

end

instance : Inhabited Node := ⟨.step default⟩

/-- The signal that the last step of a body writes, if the body ends in a step. -/
def lastOut? (body : List Node) : Option String :=
  match body.getLast? with
  | some (.step step) => some step.out
  | _ => none

/-- What the decider of a comparison reads for this side. -/
def Side.operand : Side → Operand
  | value operand => operand
  | series _ body => .signal ((lastOut? body).getD each)

/-- How deep a side of a comparison nests; its series is not looked into. -/
def Side.depth : Side → Nat
  | value _ => 0
  | series _ body => 1 + min body.length 1

mutual

/-- How deep a construct nests. A step has depth one. -/
def Node.depth : Node → Nat
  | .chain _ body | .parallel _ body | .series _ body => bodyDepth body + 1
  | .conditional _ _ test _ body => max (bodyDepth body) test.depth + 1
  | .compare _ _ left right _ => max left.depth right.depth + 1
  | .and _ body _ | .or _ body _ => bodyDepth body + 1
  | .step _ => 1

/-- The depth of the deepest member. -/
def bodyDepth : List Node → Nat
  | [] => 0
  | node :: rest => max node.depth (bodyDepth rest)

end

mutual

/-- Whether two constructs are the same. -/
def Node.same : Node → Node → Bool
  | .chain scope body, .chain scope' body' | .parallel scope body, .parallel scope' body'
  | .series scope body, .series scope' body' => scope == scope' && sameBody body body'
  | .conditional loops scope test out body, .conditional loops' scope' test' out' body' =>
    loops == loops' && scope == scope' && test.same test' && out == out' && sameBody body body'
  | .compare op negated left right out, .compare op' negated' left' right' out' =>
    op == op' && negated == negated' && left.same left' && right.same right' && out == out'
  | .and negated body out, .and negated' body' out' | .or negated body out, .or negated' body' out' =>
    negated == negated' && sameBody body body' && out == out'
  | .step step, .step step' => step == step'
  | _, _ => false

def Side.same : Side → Side → Bool
  | .value operand, .value operand' => operand == operand'
  | .series scope body, .series scope' body' => scope == scope' && sameBody body body'
  | _, _ => false

def sameBody : List Node → List Node → Bool
  | [], [] => true
  | node :: rest, node' :: rest' => node.same node' && sameBody rest rest'
  | _, _ => false

end

mutual

theorem Node.same_iff : (node other : Node) → (node.same other = true ↔ node = other)
  | .chain _ body, other | .parallel _ body, other | .series _ body, other
  | .and _ body _, other | .or _ body _, other => by
    cases other <;> simp [Node.same, sameBody_iff body, and_assoc]
  | .conditional _ _ test _ body, other => by
    cases other <;> simp [Node.same, Node.same_iff test, sameBody_iff body, and_assoc]
  | .compare _ _ left right _, other => by
    cases other <;> simp [Node.same, Side.same_iff left, Side.same_iff right, and_assoc]
  | .step _, other => by cases other <;> simp [Node.same]

theorem Side.same_iff : (side other : Side) → (side.same other = true ↔ side = other)
  | .value _, other => by cases other <;> simp [Side.same]
  | .series _ body, other => by cases other <;> simp [Side.same, sameBody_iff body]

theorem sameBody_iff : (body other : List Node) → (sameBody body other = true ↔ body = other)
  | [], other => by cases other <;> simp [sameBody]
  | node :: rest, other => by
    cases other <;> simp [sameBody, Node.same_iff node, sameBody_iff rest]

end

instance : DecidableEq Node := fun node other => decidable_of_iff _ (node.same_iff other)

/-- A whole program. -/
structure Script where
  scope : Scope
  body : List Node
  deriving DecidableEq, Inhabited

end CircuitScript
