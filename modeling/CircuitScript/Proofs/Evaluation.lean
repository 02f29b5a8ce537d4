import CircuitScript.Expr.Simplify
import CircuitScript.Script.Node
/-!
What expressions and steps compute when every signal has a value. Truth values are one and zero, and
whatever is not zero counts as true.
-/
namespace CircuitScript

/-- A value for every signal. Names have no meaning of their own here, wildcards included. -/
abbrev Valuation := String → Int32

variable {v w : Valuation} {x : String}

/-- The valuation with one signal overwritten. -/
def Valuation.set (v : Valuation) (signal : String) (value : Int32) : Valuation :=
  fun x => if x = signal then value else v x

@[simp] theorem Valuation.set_self (signal : String) (value : Int32) :
    v.set signal value signal = value := by
  simp [set]

theorem Valuation.set_of_ne {signal : String} {value : Int32} (h : x ≠ signal) :
    v.set signal value x = v x := by
  simp [set, h]

/-- A truth value as a signal carries it. -/
def truth (flag : Bool) : Int32 := if flag then 1 else 0

@[simp] theorem truth_beq_zero (flag : Bool) : (truth flag == 0) = !flag := by
  cases flag <;> decide

@[simp] theorem truth_bne_zero (flag : Bool) : (truth flag != 0) = flag := by
  cases flag <;> decide

/-- What an operator gives on two values. -/
def BinaryOp.eval : BinaryOp → Int32 → Int32 → Int32
  | add, a, b => a + b
  | sub, a, b => a - b
  | mul, a, b => a * b
  | div, a, b => a / b
  | lt, a, b => truth (decide (a < b))
  | gt, a, b => truth (decide (b < a))
  | eq, a, b => truth (a == b)
  | ne, a, b => truth (a != b)
  | le, a, b => truth (decide (a ≤ b))
  | ge, a, b => truth (decide (b ≤ a))
  | and, a, b => truth (a != 0 && b != 0)
  | or, a, b => truth (a != 0 || b != 0)

/-- An operator of arithmetic computes what its combinator does. -/
theorem BinaryOp.eval_of_arith? {op : BinaryOp} {arith : Arith} (h : op.arith? = some arith)
    (a b : Int32) : op.eval a b = arith.apply a b := by
  cases op <;> cases h <;> rfl

/-- A comparison is one if it holds and zero if not. -/
theorem BinaryOp.eval_of_comparator? {op : BinaryOp} {comparator : Comparator}
    (h : op.comparator? = some comparator) (a b : Int32) :
    op.eval a b = truth (comparator.holds a b) := by
  cases op <;> cases h <;> simp only [eval, Comparator.holds]
  rfl

@[simp] theorem Literal.toInt32_bool (flag : Bool) : (Literal.bool flag).toInt32 = truth flag := rfl

@[simp] theorem Literal.truthy_bool (flag : Bool) : (Literal.bool flag).truthy = flag :=
  truth_bne_zero flag

namespace Expr

/-- The value of an expression. -/
def eval (v : Valuation) : Expr → Int32
  | literal value => value.toInt32
  | name signal => v signal
  | unary .neg argument => -argument.eval v
  | unary .not argument => truth (argument.eval v == 0)
  | binary op left right negated =>
    let value := op.eval (left.eval v) (right.eval v)
    if negated then truth (value == 0) else value

/-- The expression counts as true. -/
def holds (v : Valuation) (expr : Expr) : Bool := expr.eval v != 0

/-- The expression with every name replaced once. -/
def rename (f : String → String) : Expr → Expr
  | literal value => literal value
  | name signal => name (f signal)
  | unary op argument => unary op (argument.rename f)
  | binary op left right negated => binary op (left.rename f) (right.rename f) negated

/-- Expressions that compute a number: no operator but the four of arithmetic and the minus sign. -/
inductive Arithmetic : Expr → Prop
  | literal (value : Literal) : Arithmetic (literal value)
  | name (signal : String) : Arithmetic (name signal)
  | neg {argument : Expr} (h : Arithmetic argument) : Arithmetic (unary .neg argument)
  | binary {op : BinaryOp} {left right : Expr} (h : op.tier = .arithmetic) (hl : Arithmetic left)
      (hr : Arithmetic right) : Arithmetic (binary op left right false)

/-- Expressions in which arithmetic stands below comparisons and these below logic, never the other
way round. -/
inductive Stratified : Expr → Prop
  | arithmetic {expr : Expr} (h : Arithmetic expr) : Stratified expr
  | relation {op : BinaryOp} {left right : Expr} (negated : Bool) (h : op.tier = .relational)
      (hl : Arithmetic left) (hr : Arithmetic right) : Stratified (binary op left right negated)
  | logic {op : BinaryOp} {left right : Expr} (negated : Bool) (h : op.tier = .logical)
      (hl : Stratified left) (hr : Stratified right) : Stratified (binary op left right negated)
  | not {argument : Expr} (h : Stratified argument) : Stratified (unary .not argument)

/-- A mark turns the value into the truth of its being zero. -/
theorem eval_binary (op : BinaryOp) (left right : Expr) (negated : Bool) :
    (binary op left right negated).eval v =
      if negated then truth (op.eval (left.eval v) (right.eval v) == 0)
      else op.eval (left.eval v) (right.eval v) := rfl

/-- For the truth of a node, a mark is a negation. -/
theorem holds_binary (op : BinaryOp) (left right : Expr) (negated : Bool) :
    (binary op left right negated).holds v =
      ((op.eval (left.eval v) (right.eval v) != 0) != negated) := by
  cases negated <;> simp [holds, eval_binary, bne]

@[simp] theorem holds_not (argument : Expr) :
    (unary .not argument).holds v = !argument.holds v := by
  simp [holds, eval, bne]

@[simp] theorem holds_literal (value : Literal) : (literal value).holds v = value.truthy := rfl

/-- A logical operator looks only at the truth of its operands. -/
theorem holds_logical {op : BinaryOp} (h : op.tier = .logical) (left right : Expr)
    (negated : Bool) :
    (binary op left right negated).holds v =
      ((if op = .and then left.holds v && right.holds v else left.holds v || right.holds v) !=
        negated) := by
  rw [holds_binary]
  cases op <;> simp [BinaryOp.tier, BinaryOp.eval, holds] at h ⊢

/-- Names are gathered from left to right into those known already. -/
theorem contains_addNames (known : NameSet) (expr : Expr) :
    (expr.addNames known).contains x = (known.contains x || expr.names.contains x) := by
  unfold names
  induction expr generalizing known with
  | literal value => simp [addNames]
  | name signal => simp [addNames, Bool.or_comm]
  | unary op argument ih => exact ih known
  | binary op left right negated ihl ihr =>
    simp only [addNames]
    rw [ihr, ihl, ihr (left.addNames _), Bool.or_assoc]

@[simp] theorem contains_names_literal (value : Literal) :
    (literal value).names.contains x = false := rfl

@[simp] theorem contains_names_name (signal : String) :
    (name signal).names.contains x = (x == signal) := by
  simp [names, addNames]

@[simp] theorem contains_names_binary (op : BinaryOp) (left right : Expr) (negated : Bool) :
    (binary op left right negated).names.contains x =
      (left.names.contains x || right.names.contains x) :=
  contains_addNames left.names right

/-- Only the signals that an expression reads bear on its value. -/
theorem eval_congr {expr : Expr} (h : ∀ x, expr.names.contains x = true → v x = w x) :
    expr.eval v = expr.eval w := by
  induction expr with
  | literal value => rfl
  | name signal => exact h signal (by simp)
  | unary op argument ih =>
    have ha := ih h
    cases op <;> simp [eval, ha]
  | binary op left right negated ihl ihr =>
    have hl := ihl fun x hx => h x (by simp [hx])
    have hr := ihr fun x hx => h x (by simp [hx])
    simp only [eval_binary, hl, hr]

end Expr

/-- What an operand stands for. -/
def Operand.eval (v : Valuation) : Operand → Int32
  | signal name => v name
  | constant value => value

namespace Step

/-- The value that a step computes. -/
def eval (v : Valuation) (step : Step) : Int32 :=
  step.op.apply (step.left.eval v) (step.right.eval v)

/-- The valuation after a step. -/
def run (v : Valuation) (step : Step) : Valuation := v.set step.out (step.eval v)

/-- The valuation after some steps in order. -/
def runAll (v : Valuation) (steps : List Step) : Valuation := steps.foldl run v

/-- Steps run one after another, each on what those before it left. -/
@[simp] theorem runAll_append (first second : List Step) :
    runAll v (first ++ second) = runAll (runAll v first) second := by
  simp [runAll]

/-- Steps change nothing but the signals they write. -/
theorem runAll_of_not_mem {steps : List Step} (h : x ∉ steps.map Step.out) :
    runAll v steps x = v x := by
  induction steps generalizing v with
  | nil => rfl
  | cons step rest ih =>
    simp only [List.map_cons, List.mem_cons, not_or] at h
    exact (ih h.2).trans (Valuation.set_of_ne h.1)

end Step

end CircuitScript
