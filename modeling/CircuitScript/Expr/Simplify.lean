import CircuitScript.Expr.Basic
/-!
One pass of simplification: aliases are replaced, constants folded, logical operators with one
constant side cut short, and negations pushed down until no unary node is left.
-/
namespace CircuitScript.Expr

/-- Logical negation without a unary node: a comparison or logical node flips its mark, any other
value is compared with zero. -/
def negate : Expr → Expr
  | literal value => literal (.bool !value.truthy)
  | binary op left right negated =>
    if op.tier = .arithmetic then plain .eq (binary op left right negated) (int 0)
    else binary op left right !negated
  | other => plain .eq other (int 0)

/-- Negates on demand. -/
def negateIf (negated : Bool) (expr : Expr) : Expr := if negated then negate expr else expr

/-- The relation in terms of `<`, `>` and `=`, and whether it is the negation of it. -/
def canonicalOp : BinaryOp → BinaryOp × Bool
  | .ne => (.eq, true)
  | .le => (.gt, true)
  | .ge => (.lt, true)
  | op => (op, false)

/-- The tier under which the operands of an operator are simplified. -/
def operandTier (op : BinaryOp) : Tier :=
  match op.tier with
  | .relational => .arithmetic
  | own => own

/-- The value of an operator on constants. Arithmetic always folds, the other operators only in a
context of at least their own tier. -/
def fold? (op : BinaryOp) (a b : Literal) (tier : Tier) : Option Literal :=
  match op.arith? with
  | some arith => some (.int (arith.apply a.toInt32 b.toInt32))
  | none =>
    if tier.rank < op.tier.rank then none
    else
      match op with
      | .and => some (.bool (a.truthy && b.truthy))
      | .or => some (.bool (a.truthy || b.truthy))
      | _ => op.comparator?.map fun comparator => .bool (comparator.holds a.toInt32 b.toInt32)

/-- A logical operator with the constant `value` on one side: either the other side decides, or the
constant does. -/
def shortCircuit (op : BinaryOp) (value : Literal) (other : Expr) (negated : Bool) : Expr :=
  if (op == .and) == value.truthy then negateIf negated other
  else literal (.bool ((op == .or) != negated))

/-- A binary node whose operands are simplified already. -/
def rebuild (op : BinaryOp) (left right : Expr) (negated : Bool) (tier : Tier) : Expr :=
  match left.literal?, right.literal? with
  | some a, some b =>
    match fold? op a b tier with
    | some value => literal (if negated then .bool !value.truthy else value)
    | none => binary op left right negated
  | some value, none =>
    if op.tier = .logical then shortCircuit op value right negated
    else binary op left right negated
  | none, some value =>
    if op.tier = .logical then shortCircuit op value left negated
    else binary op left right negated
  | none, none => binary op left right negated

/-- Simplifies an expression for use in a context of the given tier. -/
def simplify (aliases : NameMap) (tier : Tier) : Expr → Expr
  | name signal => name ((aliases.get? signal).getD signal)
  | literal value => literal value
  | unary .neg argument =>
    let argument := simplify aliases tier argument
    match argument.literal? with
    | some value => int (-value.toInt32)
    | none => plain .sub (int 0) argument
  | unary .not argument => negate (simplify aliases tier argument)
  | binary op left right negated =>
    let (op, flips) := canonicalOp op
    rebuild op (simplify aliases (operandTier op) left) (simplify aliases (operandTier op) right)
      (negated != flips) tier

end CircuitScript.Expr
