import CircuitScript.Signal
/-!
Operators of expressions. An operator belongs to one of three tiers; constant folding of a tier is
licensed only in a context of at least that tier.
-/
namespace CircuitScript

/-- Evaluation context of an operator. -/
inductive Tier
  | arithmetic | relational | logical
  deriving DecidableEq, Repr, Inhabited

namespace Tier

/-- Position in the order arithmetic, relational, logical. -/
def rank : Tier → Nat
  | arithmetic => 0
  | relational => 1
  | logical => 2

end Tier

inductive BinaryOp
  | add | sub | mul | div | lt | gt | eq | ne | le | ge | and | or
  deriving DecidableEq, Repr, Inhabited

namespace BinaryOp

def tier : BinaryOp → Tier
  | add | sub | mul | div => .arithmetic
  | and | or => .logical
  | lt | gt | eq | ne | le | ge => .relational

def arith? : BinaryOp → Option Arith
  | add => some .add
  | sub => some .sub
  | mul => some .mul
  | div => some .div
  | _ => none

/-- Only three relations have a comparator of their own; the others are negations of these. -/
def comparator? : BinaryOp → Option Comparator
  | lt => some .lt
  | gt => some .gt
  | eq => some .eq
  | _ => none

def ofArith : Arith → BinaryOp
  | .add => add
  | .sub => sub
  | .mul => mul
  | .div => div

def symbol : BinaryOp → String
  | add => "+"
  | sub => "-"
  | mul => "*"
  | div => "/"
  | lt => "<"
  | gt => ">"
  | eq => "="
  | ne => "!="
  | le => "<="
  | ge => ">="
  | and => "&&"
  | or => "||"

end BinaryOp

inductive UnaryOp
  | not | neg
  deriving DecidableEq, Repr, Inhabited

/-- A constant of an expression. A truth value counts as one or zero. -/
inductive Literal
  | int (value : Int32)
  | bool (flag : Bool)
  deriving DecidableEq, Repr, Inhabited

namespace Literal

def toInt32 : Literal → Int32
  | int value => value
  | bool flag => if flag then 1 else 0

def truthy (literal : Literal) : Bool := literal.toInt32 != 0

def text : Literal → String
  | int value => decimal value
  | bool flag => if flag then "true" else "false"

end Literal

end CircuitScript
