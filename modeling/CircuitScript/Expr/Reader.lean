import CircuitScript.Error
import CircuitScript.Expr.Basic
import CircuitScript.Formula.Program
import CircuitScript.Number.Shortest
/-!
Reading expressions. A script writes equality as a single `=`; it is doubled first, so that it takes
the place of a comparison in the grammar.
-/
namespace CircuitScript

/-- A `=` after one of these is part of an operator already. -/
def joinsEquality (c : Option Char) : Bool :=
  match c with
  | some '=' | some '<' | some '>' | some '!' => true
  | _ => false

/-- Doubles each `=` that neither joins the character before it nor is followed by another one. -/
def doubleEquality (previous : Option Char) : List Char → List Char
  | [] => []
  | '=' :: rest =>
    if joinsEquality previous || rest.head? == some '=' then
      '=' :: doubleEquality (some '=') rest
    else '=' :: '=' :: doubleEquality (some '=') rest
  | c :: rest => c :: doubleEquality (some c) rest

namespace Expr

open Formula (Form)

/-- The operator of a binary form, or why there is none. -/
def operatorOf (op : String) : Except FormulaFault BinaryOp :=
  match op with
  | "+" => .ok .add
  | "-" => .ok .sub
  | "*" => .ok .mul
  | "/" => .ok .div
  | "<" => .ok .lt
  | ">" => .ok .gt
  | "<=" => .ok .le
  | ">=" => .ok .ge
  | "==" | "===" => .ok .eq
  | "!=" | "!==" => .ok .ne
  | "&&" => .ok .and
  | "||" => .ok .or
  | "??" => .error .logicalOperator
  | "%" => .error (.operator "Remainder")
  | "**" => .error (.operator "Exponential")
  | "<<" => .error (.operator "ShiftLeft")
  | ">>" => .error (.operator "ShiftRight")
  | ">>>" => .error (.operator "ShiftRightZeroFill")
  | "&" => .error (.operator "BitwiseAnd")
  | "|" => .error (.operator "BitwiseOR")
  | "^" => .error (.operator "BitwiseXOR")
  | "in" => .error (.operator "In")
  | "instanceof" => .error (.operator "Instanceof")
  | _ => .error .unsupported

/-- A number that is an integer of 32 bits. -/
def ofNumber (value : Binary64) : Except FormulaFault Expr :=
  match value.toNat? with
  | some n => if n < Nat.pow 2 31 then .ok (int (Int32.ofNat n)) else .error (.number value.text)
  | none => .error (.number value.text)

/-- The expression that a form stands for. The operator of a binary form is looked at before its
operands, that of a unary form after its argument. -/
def ofForm : Form → Except FormulaFault Expr
  | .number value => ofNumber value
  | .bool flag => .ok (literal (.bool flag))
  | .name text => .ok (name text)
  | .group inner => ofForm inner
  | .unary op argument => do
    let argument ← ofForm argument
    match op with
    | "!" => return unary .not argument
    | "-" => return unary .neg argument
    | "+" => return argument
    | _ => throw .unaryOperator
  | .binary op left right => do
    let op ← operatorOf op
    let left ← ofForm left
    let right ← ofForm right
    return plain op left right
  | _ => .error .unsupported

/-- The expression that a program of the grammar stands for, which must be a single one. -/
def ofProgram (program : Option (List (Option Form))) : Except FormulaFault Expr :=
  match program.map Formula.dropDirectives with
  | none => .error .malformed
  | some [some form] => ofForm form
  | some _ => .error .notSingle

/-- Reads an expression. The error carries no place. -/
def ofText (raw : String) : Except Error Expr :=
  match ofProgram (Formula.program? (doubleEquality none raw.toList)) with
  | .ok expr => .ok expr
  | .error fault => .error (.syntactic (.formula fault raw) none)

end Expr

end CircuitScript
