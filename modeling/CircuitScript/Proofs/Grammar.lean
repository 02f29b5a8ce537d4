import CircuitScript.Proofs.ScratchHygiene
/-!
The grammar of programs, as a check that can be run. Whatever text is accepted, the program that was
read passes it: blocks stand where they may, assignments have one of two forms, and conditions are
trees of comparisons that are flat wherever they can be.
-/
namespace CircuitScript

variable {P : String → Prop} {context : Context} {start scope : Scope} {node test : Node}
  {body : List Node} {out : String}

/-- A body of single steps, of which there is at least one. -/
def isSeries (body : List Node) : Bool := !body.isEmpty && body.all fun node => node.step?.isSome

/-- What may stand on either side of a comparison. -/
def Side.isOperand : Side → Bool
  | value _ => true
  | series _ body => isSeries body

/-- What may stand on the first side of a comparison: anything but a constant. -/
def Side.isSignal : Side → Bool
  | value (.signal _) => true
  | value (.constant _) => false
  | series _ body => isSeries body

/-- A group of the operator that is not negated, which would melt into another one around it. -/
def Node.melts (op : BinaryOp) : Node → Bool
  | .and false _ _ => op == .and
  | .or false _ _ => op == .or
  | _ => false

/-- Members of a group of the operator: at least two, and none that could melt into the group. -/
def isFlat (op : BinaryOp) (body : List Node) : Bool :=
  decide (2 ≤ body.length) && body.all fun node => !node.melts op

mutual

/-- The construct of a condition that writes to `out`. -/
def Node.isConditionOf (out : String) : Node → Bool
  | .compare _ _ left right written => written == out && left.isSignal && right.isOperand
  | .and _ body written => written == out && isFlat .and body && areConditionsOf out body
  | .or _ body written => written == out && isFlat .or body && areConditionsOf out body
  | _ => false

def areConditionsOf (out : String) : List Node → Bool
  | [] => true
  | node :: rest => node.isConditionOf out && areConditionsOf out rest

end

/-- `target * k -> target` -/
def Step.isScaling (step : Step) (k : Int32) : Bool :=
  step == ⟨.signal step.out, .mul, .constant k, step.out⟩

/-- The members of an assignment: every signal is forwarded, and then either a series computes the new
value of the target and its old value is cancelled, or the target is scaled. -/
def isAssignment : List Node → Bool
  | [.step first, .series _ body, .step last] =>
    first == .passthrough && isSeries body && lastOut? body == some last.out && last.isScaling (-1)
  | [.step first, .series _ [.step only]] =>
    first == .passthrough &&
      match only.right with
      | .constant k => only.isScaling k
      | .signal _ => false
  | _ => false

mutual

/-- The construct may stand in a body of the context. -/
def Node.standsIn (context : Context) : Node → Bool
  | .chain _ body => context == .script && bodyStandsIn .chain body
  | .parallel _ body =>
    (context == .chain && bodyStandsIn .parallel body) ||
      (!context.takesSteps && isAssignment body)
  | .series _ body => context == .parallel && bodyStandsIn .series body
  | .conditional loops _ test out body =>
    test.isConditionOf out && bodyStandsIn (.conditional loops) body
  | .step _ => context.takesSteps
  | .compare .. | .and .. | .or .. => false

def bodyStandsIn (context : Context) : List Node → Bool
  | [] => true
  | node :: rest => node.standsIn context && bodyStandsIn context rest

end

theorem areConditionsOf_eq_true_iff :
    areConditionsOf out body = true ↔ ∀ node ∈ body, node.isConditionOf out = true := by
  induction body with
  | nil => simp [areConditionsOf]
  | cons node rest ih => simp [areConditionsOf, ih]

theorem bodyStandsIn_concat (hb : bodyStandsIn context body = true)
    (hn : node.standsIn context = true) : bodyStandsIn context (body ++ [node]) = true := by
  induction body with
  | nil => simpa [bodyStandsIn] using hn
  | cons first rest ih =>
    simp only [List.cons_append, bodyStandsIn, Bool.and_eq_true] at hb ⊢
    exact ⟨hb.1, ih hb.2⟩

theorem isSeries_map_step {steps : List Step} (h : steps ≠ []) :
    isSeries (steps.map .step) = true := by
  simp [isSeries, h, Node.step?]

theorem isOperand_of_shaped {side : Side} (h : side.Shaped P) : side.isOperand = true := by
  cases h with
  | value => rfl
  | series hne => exact isSeries_map_step hne

theorem isSignal_of_shaped {side : Side} {name : String} (h : side.Shaped P)
    (ho : side.operand = .signal name) : side.isSignal = true := by
  cases h with
  | @value operand =>
    cases operand with
    | signal => rfl
    | constant => cases ho
  | series hne => exact isSeries_map_step hne

theorem melts_eq_false {op : BinaryOp} (h : node.IsTest P out)
    (hg : ∀ inner, node ≠ Expr.group op false inner out) : node.melts op = false := by
  cases h with
  | compare => rfl
  | @and negated inner =>
    cases negated with
    | true => rfl
    | false =>
      refine Bool.eq_false_iff.mpr fun hop => hg inner ?_
      rw [eq_of_beq hop]
      rfl
  | @or negated inner =>
    cases negated with
    | true => rfl
    | false =>
      refine Bool.eq_false_iff.mpr fun hop => hg inner ?_
      rw [eq_of_beq hop]
      rfl

theorem isFlat_of_isTest (op : BinaryOp) (hsize : 2 ≤ body.length)
    (h : ∀ node ∈ body, node.IsTest P out)
    (hg : ∀ node ∈ body, ∀ inner, node ≠ Expr.group op false inner out) :
    isFlat op body = true := by
  rw [isFlat, Bool.and_eq_true, List.all_eq_true]
  refine ⟨decide_eq_true hsize, fun node hm => ?_⟩
  rw [melts_eq_false (h node hm) (hg node hm), Bool.not_false]

/-- A tree of comparisons passes the check of conditions. -/
theorem isConditionOf_of_isTest (h : test.IsTest P out) : test.isConditionOf out = true := by
  induction h with
  | compare hl hs hr =>
    simp [Node.isConditionOf, isSignal_of_shaped hl hs, isOperand_of_shaped hr]
  | and hsize h hflat ih =>
    simp [Node.isConditionOf, isFlat_of_isTest .and hsize h hflat,
      areConditionsOf_eq_true_iff.mpr ih]
  | or hsize h hflat ih =>
    simp [Node.isConditionOf, isFlat_of_isTest .or hsize h hflat,
      areConditionsOf_eq_true_iff.mpr ih]

theorem Expr.named_true (expr : Expr) : expr.Named fun _ => True := by
  induction expr with
  | literal value => trivial
  | name signal => trivial
  | unary op argument ih => exact ih
  | binary op left right negated ihl ihr => exact ⟨ihl, ihr⟩

theorem isConditionOf_of_condition {expr : Expr} {after : Scope}
    (h : expr.condition.runIn scope = (.ok (test, out), after)) : test.isConditionOf out = true := by
  have htest := Expr.isTest_of_condition (P := fun _ => True) (fun _ _ => trivial) expr.named_true
    (fun _ _ _ => trivial) h
  exact isConditionOf_of_isTest htest.1

theorem assignment_isAssignment {target : String} {expr : Expr}
    (h : assignment target expr scope = .ok node) :
    ∃ members, node = .parallel scope members ∧ isAssignment members = true := by
  rw [assignment] at h
  split at h
  · next steps inner hrun =>
    cases h
    refine ⟨_, rfl, ?_⟩
    obtain ⟨names, -, -, outs, houts, -⟩ := (Expr.takes_steps _ target).outcome hrun
    have hne : steps ≠ [] := by
      rintro rfl
      simp at houts
    rcases assignmentBody_cases target steps inner with ⟨step, k, -, -, hb⟩ | hb
    · rw [hb]
      simp [scaling, isAssignment, Step.isScaling]
    · rw [hb]
      simp [replacing, isAssignment, Step.isScaling, isSeries_map_step hne, lastOut?_map_step houts]
  · cases h

/-- What statements make of a body may stand there. -/
theorem Written.standsIn (h : Written context start body scope) :
    bodyStandsIn context body = true := by
  induction h with
  | nil => rfl
  | bind _ _ ih => exact ih
  | step _ hc ih => exact bodyStandsIn_concat ih hc
  | assign _ hc ha ih =>
    obtain ⟨members, rfl, hm⟩ := assignment_isAssignment ha
    exact bodyStandsIn_concat ih (by simp [Node.standsIn, hc, hm])
  | conditional _ ht _ ih ihb =>
    exact bodyStandsIn_concat ih (by simp [Node.standsIn, isConditionOf_of_condition ht, ihb])
  | chain _ _ ih ihb | parallel _ _ ih ihb | series _ _ ih ihb =>
    exact bodyStandsIn_concat ih (by simp [Node.standsIn, ihb])

namespace Script

variable {source : String} {script : Script}

/-- Every program that is accepted is in the grammar. -/
theorem parse_in_grammar (h : parse source = .ok script) :
    bodyStandsIn .script script.body = true :=
  (written_of_parse h).standsIn

/-- Every kind of block, both forms of an assignment, and a condition whose groups are flattened where
they are not negated. -/
def everyBlock : String :=
  "chain \x7b parallel \x7b a = b; series \x7b if d > 3 \x7b a *= 5 \x7d \x7d \x7d " ++
    "while a && (b && !(c && d * a > 0)) \x7b a = b \x7d \x7d"

theorem parse_in_grammar_everyBlock :
    ∃ script, parse everyBlock = .ok script ∧ script.body.map Node.depth = [7] ∧
      bodyStandsIn .script script.body = true := by
  obtain ⟨script, hp, hd⟩ : ∃ script, parse everyBlock = .ok script ∧
      script.body.map Node.depth = [7] := exists_parse (by decide +kernel)
  exact ⟨script, hp, hd, parse_in_grammar hp⟩

-- The check refuses blocks in the wrong place: a chain in a chain, a series outside a parallel.
example : bodyStandsIn .script [.chain .root [.chain .root []]] = false ∧
    bodyStandsIn .chain [.series .root []] = false := ⟨rfl, rfl⟩

end Script

end CircuitScript
