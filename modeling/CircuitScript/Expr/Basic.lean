import CircuitScript.Expr.Operator
import CircuitScript.Names
/-!
Infix expressions over signals.
-/
namespace CircuitScript

/-- An expression tree. A binary node with `negated` set stands for the logical negation of its
result. -/
inductive Expr
  | literal (value : Literal)
  | name (signal : String)
  | binary (op : BinaryOp) (left right : Expr) (negated : Bool)
  | unary (op : UnaryOp) (argument : Expr)
  deriving DecidableEq, Repr, Inhabited

namespace Expr

def int (value : Int32) : Expr := literal (.int value)

/-- A binary node that is not negated. -/
def plain (op : BinaryOp) (left right : Expr) : Expr := binary op left right false

def isBinary : Expr → Bool
  | binary .. => true
  | _ => false

def isLiteral : Expr → Bool
  | literal _ => true
  | _ => false

/-- The value of an expression that is a literal. -/
def literal? : Expr → Option Literal
  | literal value => some value
  | _ => none

/-- Adds every signal that the expression reads to a set of names. -/
def addNames (known : NameSet) : Expr → NameSet
  | literal _ => known
  | name signal => known.insert signal
  | binary _ left right _ => right.addNames (left.addNames known)
  | unary _ argument => argument.addNames known

/-- The signals that the expression reads. -/
def names (expr : Expr) : NameSet := expr.addNames NameSet.empty

end Expr

end CircuitScript
