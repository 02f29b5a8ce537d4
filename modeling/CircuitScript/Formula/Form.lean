import CircuitScript.Number.Binary64
/-!
What the expression grammar yields. Forms that no circuit can compute are told apart only as far as
the grammar itself needs it.
-/
namespace CircuitScript.Formula

inductive Form
  | number (value : Binary64)
  | bool (flag : Bool)
  | name (text : String)
  | string
  /-- An expression in parentheses. -/
  | group (inner : Form)
  | unary (op : String) (argument : Form)
  | binary (op : String) (left right : Form)
  | awaiting
  /-- A member of an object. -/
  | member
  /-- A list or an object whose parts can all be assigned to. -/
  | pattern
  | other
  deriving DecidableEq, Repr, Inhabited

namespace Form

/-- The form is a name or a member, in any number of parentheses. -/
def isPlace : Form → Bool
  | name _ | member => true
  | group inner => inner.isPlace
  | _ => false

/-- The form can be assigned to. A pattern in parentheses cannot. -/
def isTarget : Form → Bool
  | pattern => true
  | form => form.isPlace

/-- The form begins with an operator, so it must not stand before `**`. -/
def isPrefixed : Form → Bool
  | unary .. | awaiting => true
  | _ => false

/-- The form is `&&` or `||`, bare. -/
def isJunction : Form → Bool
  | binary op .. => op == "&&" || op == "||"
  | _ => false

/-- The form is `??`, bare. -/
def isCoalescing : Form → Bool
  | binary op .. => op == "??"
  | _ => false

/-- Two operands joined. A bare `??` does not mix with a bare `&&` or `||`, and `**` takes no bare
unary form on its left. -/
def join? (op : String) (left right : Form) : Option Form :=
  if op == "**" && left.isPrefixed then none
  else if op == "??" && (left.isJunction || right.isJunction) then none
  else if (op == "&&" || op == "||") && (left.isCoalescing || right.isCoalescing) then none
  else some (binary op left right)

end Form

/-- A part of a list or an object. -/
inductive Part
  /-- Nothing, between two commas. -/
  | hole
  | single (form : Form)
  /-- All parts of another list or object. -/
  | spread (form : Form)
  deriving DecidableEq, Repr, Inhabited

namespace Part

/-- The parts can all be assigned to. What is left over goes to a spread part, which is the last one
and has no comma after it. -/
def areTargets (isRest : Form → Bool) (comma : Bool) : List Part → Bool
  | [] => true
  | [spread form] => !comma && isRest form
  | spread _ :: _ => false
  | hole :: parts => areTargets isRest comma parts
  | single form :: parts => form.isTarget && areTargets isRest comma parts

end Part

/-- A list with these parts, and maybe a comma after the last. -/
def Form.ofList (parts : List Part) (comma : Bool) : Form :=
  if Part.areTargets isTarget comma parts then pattern else other

/-- An object with these parts. What is left over of an object goes to a single place. -/
def Form.ofObject (parts : List Part) (comma : Bool) : Form :=
  if Part.areTargets isPlace comma parts then pattern else other

end CircuitScript.Formula
