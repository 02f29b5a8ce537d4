import CircuitScript.Proofs.StepSequence
/-!
Assignments as parallels. The members of a parallel all put something on the same network, where
values of one signal add up; an assignment changes its target to the value of its expression and
leaves every other signal as it is.
-/
namespace CircuitScript

open Scratch

variable {v : Valuation} {target x : String} {scope after : Scope} {step : Step} {steps : List Step}
  {inner : List String} {k : Int32} {expr : Expr}

/-- What an operand stands for while a wildcard works on signal `x`. -/
def Operand.evalAt (v : Valuation) (x : String) : Operand → Int32
  | signal name => if name = each then v x else v name
  | constant value => value

/-- What a step puts on signal `x`. A step that writes to each signal works on every one by itself,
any other step puts its value on one signal. -/
def Step.output (v : Valuation) (step : Step) (x : String) : Int32 :=
  if step.out = each then step.op.apply (step.left.evalAt v x) (step.right.evalAt v x)
  else if x = step.out then step.eval v else 0

/-- What a member of an assignment puts on signal `x`. A series puts out what its last step writes
once all its steps have run in order. -/
def Node.output (v : Valuation) (node : Node) (x : String) : Int32 :=
  match node with
  | .step step => step.output v x
  | .series _ body =>
    if lastOut? body = some x then Step.runAll v (bodySteps body) x else 0
  | _ => 0

/-- What all members of a body together put on signal `x`. -/
def bodyOutput (v : Valuation) (body : List Node) (x : String) : Int32 :=
  (body.map fun member => member.output v x).sum

/-- The members that put the value of some steps in the place of the old value. -/
def replacing (target : String) (steps : List Step) (scope : Scope) : List Node :=
  [.series scope (steps.map .step), .step ⟨.signal target, .mul, .constant (-1), target⟩]

/-- The member that brings a signal to `k` times its old value. -/
def scaling (target : String) (k : Int32) (scope : Scope) : List Node :=
  [.series scope [.step ⟨.signal target, .mul, .constant (k - 1), target⟩]]

theorem output_passthrough : Step.passthrough.output v x = v x := by
  have hz : ∀ a : Int32, a + 0 = a := by grind
  simp [Step.output, Step.passthrough, Operand.evalAt, Arith.apply, hz]

theorem output_series (h : steps.map Step.out = inner ++ [target]) :
    (Node.series scope (steps.map .step)).output v x =
      if x = target then Step.runAll v steps target else 0 := by
  simp only [Node.output, lastOut?_map_step h, bodySteps_map_step, Option.some.injEq, eq_comm]
  split <;> simp_all

theorem output_cancel (ht : target ≠ each) :
    (Node.step ⟨.signal target, .mul, .constant (-1), target⟩).output v x =
      if x = target then -v target else 0 := by
  have hm : v target * -1 = -v target := by grind
  simp [Node.output, Step.output, ht, Step.eval, Operand.eval, Arith.apply, hm]

theorem output_scale :
    (Node.series scope [.step ⟨.signal target, .mul, .constant (k - 1), target⟩]).output v x =
      if x = target then v target * (k - 1) else 0 := by
  have h := @output_series v target x scope [⟨.signal target, .mul, .constant (k - 1), target⟩] []
    rfl
  rw [List.map_cons, List.map_nil] at h
  rw [h]
  simp [Step.runAll, Step.run, Step.eval, Operand.eval, Arith.apply]

/-- Both ways of writing a factor give the same product. -/
theorem runAll_of_scale? (h : step.scale? target = some k) :
    Step.runAll v [step] target = v target * k := by
  obtain ⟨left, op, right, out⟩ := step
  have hc : ∀ a b : Int32, a * b = b * a := by grind
  unfold Step.scale? at h
  split at h
  · next ho =>
    obtain ⟨rfl, rfl⟩ := ho
    cases left <;> cases right <;>
      simp_all [Step.runAll, Step.run, Step.eval, Operand.eval, Arith.apply]
  · cases h

theorem out_of_scale? (h : step.scale? target = some k) : step.out = target := by
  unfold Step.scale? at h
  split at h
  · next ho => exact ho.2
  · cases h

theorem assignmentBody_of_scale? (h : step.scale? target = some k) :
    assignmentBody target [step] scope = .step .passthrough :: scaling target k scope := by
  simp only [assignmentBody, h]
  rfl

/-- An assignment forwards every signal, and its other members either scale or replace. -/
theorem assignmentBody_cases (target : String) (steps : List Step) (scope : Scope) :
    (∃ step k, steps = [step] ∧ step.scale? target = some k ∧
      assignmentBody target steps scope = .step .passthrough :: scaling target k scope) ∨
    assignmentBody target steps scope = .step .passthrough :: replacing target steps scope := by
  match steps with
  | [] => exact .inr rfl
  | first :: second :: rest => exact .inr rfl
  | [step] =>
    cases h : step.scale? target with
    | some k => exact .inl ⟨step, k, rfl, h, assignmentBody_of_scale? h⟩
    | none =>
      right
      simp only [assignmentBody, h]
      rfl

/-- The members beside the forwarding one touch the target alone, and there they make up the
difference between the old value and the new one. -/
structure Replaces (target : String) (value : Valuation → Int32) (members : List Node) : Prop where
  changed : ∀ v, v target + bodyOutput v members target = value v
  unchanged : ∀ v, ∀ x ≠ target, ∀ member ∈ members, member.output v x = 0

theorem bodyOutput_cons (node : Node) (body : List Node) :
    bodyOutput v (node :: body) x = node.output v x + bodyOutput v body x := by
  simp [bodyOutput]

theorem Replaces.bodyOutput_of_ne {value : Valuation → Int32} {members : List Node}
    (h : Replaces target value members) (hx : x ≠ target) : bodyOutput v members x = 0 := by
  have hu := h.unchanged v x hx
  clear h
  induction members with
  | nil => rfl
  | cons member rest ih =>
    rw [bodyOutput_cons, hu member List.mem_cons_self,
      ih fun other ho => hu other (List.mem_cons_of_mem _ ho)]
    rfl

/-- Members that give the target the same value put the same on every signal. -/
theorem Replaces.unique {value : Valuation → Int32} {members others : List Node}
    (h : Replaces target value members) (h' : Replaces target value others) :
    bodyOutput v members x = bodyOutput v others x := by
  by_cases hx : x = target
  · have hc := (h.changed v).trans (h'.changed v).symm
    rw [hx]
    grind
  · rw [h.bodyOutput_of_ne hx, h'.bodyOutput_of_ne hx]

theorem replaces_replacing (ht : target ≠ each) (h : steps.map Step.out = inner ++ [target]) :
    Replaces target (Step.runAll · steps target) (replacing target steps scope) where
  changed := by
    intro v
    have ha : ∀ a b : Int32, a + (b + -a) = b := by grind
    simp [replacing, bodyOutput, output_series h, output_cancel ht, ha]
  unchanged := by
    intro v x hx member hm
    simp only [replacing, List.mem_cons, List.not_mem_nil, or_false] at hm
    rcases hm with rfl | rfl
    · rw [output_series h, if_neg hx]
    · rw [output_cancel ht, if_neg hx]

theorem replaces_scaling : Replaces target (fun v => v target * k) (scaling target k scope) where
  changed := by
    intro v
    have ha : ∀ a b : Int32, a + a * (b - 1) = a * b := by grind
    simp [scaling, bodyOutput, output_scale, ha]
  unchanged := by
    intro v x hx member hm
    simp only [scaling, List.mem_cons, List.not_mem_nil, or_false] at hm
    rw [hm, output_scale, if_neg hx]

theorem replaces_assignmentBody (ht : target ≠ each) (h : steps.map Step.out = inner ++ [target]) :
    ∃ members, assignmentBody target steps scope = .step .passthrough :: members ∧
      Replaces target (Step.runAll · steps target) members := by
  obtain ⟨step, k, rfl, hs, hb⟩ | hb := assignmentBody_cases target steps scope
  · refine ⟨_, hb, ?_⟩
    simpa only [runAll_of_scale? hs] using replaces_scaling
  · exact ⟨_, hb, replaces_replacing ht h⟩

/-- The scratch signals that an assignment needs are one for each node but the root. -/
def scratchNeed (expr : Expr) (scope : Scope) : Nat :=
  (expr.simplify scope.aliases .arithmetic).nodeCount - 1

/-- The scratch signals that an assignment may use. -/
def scratchFor (target : String) (expr : Expr) (scope : Scope) : List String :=
  scope.free ((expr.simplify scope.aliases .arithmetic).names.insert target)

/-- An assignment ends in one of two ways, and which one depends only on how many scratch signals
are left. -/
theorem assignment_cases (he : expr.Arithmetic) (target : String) (scope : Scope) :
    (∃ steps inner after, scratchNeed expr scope ≤ (scratchFor target expr scope).length ∧
      assignment target expr scope = .ok (.parallel scope (assignmentBody target steps after)) ∧
      steps.map Step.out = inner ++ [target] ∧
      ∀ v, Step.runAll v steps target = (expr.rename scope.resolve).eval v) ∨
    ((scratchFor target expr scope).length < scratchNeed expr scope ∧
      assignment target expr scope = .error shortage) := by
  have hd := @Expr.draws_steps ((expr.simplify scope.aliases .arithmetic).names.insert target)
    (expr.simplify scope.aliases .arithmetic) (Expr.term_simplify he) target
  obtain ⟨steps, names, hn, hnd, hav, hr, hc⟩ | ⟨hn, after, hr⟩ := hd.outcome scope
  · left
    obtain ⟨inner, ho, -⟩ := hc.outs
    refine ⟨steps, inner, scope.reserve names, hn, by simp [assignment, hr], ho, ?_⟩
    intro v
    rw [hc.value hnd ?_ v, Expr.eval_simplify he]
    · rfl
    · intro t ht
      have := hav t ht
      simp only [NameSet.contains_insert, Bool.or_eq_false_iff] at this
      exact this.2
  · exact .inr ⟨hn, by simp [assignment, hr]⟩

/-- An assignment gives its target the value of its expression and leaves all other signals alone;
it fails only for want of scratch signals. A signal that is scaled needs no cancelling member, and
for every factor that makes no difference. -/
theorem assignment_outcome (he : expr.Arithmetic) (ht : target ≠ each) (scope : Scope) :
    (match assignment target expr scope with
    | .ok node =>
      scratchNeed expr scope ≤ (scratchFor target expr scope).length ∧
      ∃ members, node = .parallel scope (.step .passthrough :: members) ∧ ∀ v,
        bodyOutput v (.step .passthrough :: members) target = (expr.rename scope.resolve).eval v ∧
        ∀ x, Step.passthrough.output v x = v x ∧
          (x ≠ target → ∀ member ∈ members, member.output v x = 0)
    | .error error =>
      (scratchFor target expr scope).length < scratchNeed expr scope ∧
      error = .exhausted scratchSignals.length none) ∧
    ∀ step k after, step.scale? target = some k →
      assignmentBody target [step] after = .step .passthrough :: scaling target k after ∧
      ∀ v x, bodyOutput v (scaling target k after) x =
        bodyOutput v (replacing target [step] after) x := by
  constructor
  · obtain ⟨steps, inner, after, hn, ha, ho, hv⟩ | ⟨hn, ha⟩ := assignment_cases he target scope
    · obtain ⟨members, hm, hr⟩ := @replaces_assignmentBody target after steps inner ht ho
      rw [ha, hm]
      refine ⟨hn, members, rfl, fun v => ⟨?_, fun x => ⟨output_passthrough, ?_⟩⟩⟩
      · rw [bodyOutput_cons, ← hv, ← hr.changed]
        exact congrArg (· + _) output_passthrough
      · intro hx member hmem
        exact hr.unchanged v x hx member hmem
    · rw [ha]
      exact ⟨hn, rfl⟩
  · intro step k after hs
    refine ⟨assignmentBody_of_scale? hs, fun v x => ?_⟩
    have ho : [step].map Step.out = [] ++ [target] := by rw [← out_of_scale? hs]; rfl
    have h := @replaces_replacing target after [step] [] ht ho
    simp only [runAll_of_scale? hs] at h
    exact replaces_scaling.unique h

/-- A scope in which one name is an alias and the first scratch signal is taken. -/
def aliasedScope : Scope := ⟨Dict.empty.insert "c" "signal_B", NameSet.empty.insert "signal_A"⟩

/-- The target is read, two nodes need scratch signals, and one operand is an alias of the scratch
signal that would come next. -/
def nestedProduct : Expr :=
  .binary .mul (.binary .add (.name "a") (.name "t") false)
    (.binary .sub (.name "c") (.unary .neg (.literal (.int 3))) false) false

theorem assignment_outcome_nestedProduct :
    nestedProduct.Arithmetic ∧ "t" ≠ each ∧
    ∃ members, assignment "t" nestedProduct aliasedScope =
      .ok (.parallel aliasedScope (.step .passthrough :: members)) ∧
      ∀ v, bodyOutput v (.step .passthrough :: members) "t" =
        (v "a" + v "t") * (v "signal_B" - -3) := by
  have he : nestedProduct.Arithmetic :=
    .binary rfl (.binary rfl (.name _) (.name _)) (.binary rfl (.name _) (.neg (.literal _)))
  have ht : "t" ≠ each := by decide
  have h := (assignment_outcome he ht aliasedScope).1
  refine ⟨he, ht, ?_⟩
  split at h
  · next node ha =>
    obtain ⟨-, members, rfl, hm⟩ := h
    exact ⟨members, ha, fun v => (hm v).1⟩
  · exact absurd h.1 (by decide)

end CircuitScript
