import CircuitScript.Proofs.ScratchPool
import CircuitScript.Proofs.Simplification
import CircuitScript.Script.Decompose
/-!
Arithmetic cut into steps. A node draws the scratch signals of its operands before the steps of
either begin; since nothing is drawn twice, no step overwrites what a later one still reads.
-/
namespace CircuitScript

def Node.step? : Node → Option Step
  | step single => some single
  | _ => none

/-- The steps among the members of a body. -/
def bodySteps (body : List Node) : List Step := body.filterMap Node.step?

@[simp] theorem bodySteps_map_step (steps : List Step) : bodySteps (steps.map .step) = steps := by
  induction steps with
  | nil => rfl
  | cons step rest ih => simpa [bodySteps, Node.step?] using ih

theorem lastOut?_map_step {steps : List Step} {inner : List String} {out : String}
    (h : steps.map Step.out = inner ++ [out]) :
    lastOut? (steps.map .step) = some out := by
  have hl : steps.getLast?.map Step.out = some out := by
    rw [← List.getLast?_map, h, List.getLast?_concat]
  obtain ⟨step, hs, ho⟩ := Option.map_eq_some_iff.mp hl
  simp [lastOut?, List.getLast?_map, hs, ho]

namespace Expr

open Scratch

variable {avoid : NameSet} {expr left right : Expr} {op : BinaryOp} {arith : Arith} {out x : String}
  {temps temps' : List String} {steps leftSteps rightSteps : List Step} {operand first second : Operand}
  {v : Valuation}

/-- The number of binary nodes. -/
def nodeCount : Expr → Nat
  | literal _ | name _ => 0
  | unary _ argument => argument.nodeCount
  | binary _ left right _ => left.nodeCount + right.nodeCount + 1

/-- The steps compute an expression into `out`: each scratch signal among `temps` is written by one
step, and the last step writes `out`. -/
structure Computes (expr : Expr) (out : String) (temps : List String) (steps : List Step) : Prop where
  outs : ∃ inner, steps.map Step.out = inner ++ [out] ∧ inner.Perm temps
  value : temps.Nodup → (∀ t ∈ temps, expr.names.contains t = false) →
    ∀ v, Step.runAll v steps out = expr.eval v

/-- After the steps, the operand holds the value of an expression. -/
structure Supplies (expr : Expr) (temps : List String) (steps : List Step) (operand : Operand) :
    Prop where
  outs : (steps.map Step.out).Perm temps
  reads : ∀ s, operand = .signal s → s ∈ temps ∨ expr.names.contains s = true
  value : temps.Nodup → (∀ t ∈ temps, expr.names.contains t = false) →
    ∀ v, operand.eval (Step.runAll v steps) = expr.eval v

theorem Computes.perm (h : Computes expr out temps steps) (hp : temps.Perm temps') :
    Computes expr out temps' steps where
  outs := by
    obtain ⟨inner, hi, hq⟩ := h.outs
    exact ⟨inner, hi, hq.trans hp⟩
  value := by
    intro hn ht
    exact h.value (hp.nodup_iff.mpr hn) fun t hm => ht t (hp.mem_iff.mp hm)

theorem supplies_leaf (h : expr.operand none = .ok operand) : Supplies expr [] [] operand := by
  cases expr with
  | literal value =>
    cases h
    exact ⟨.nil, by simp, fun _ _ _ => rfl⟩
  | name signal =>
    cases h
    refine ⟨.nil, ?_, fun _ _ _ => rfl⟩
    intro s hs
    cases hs
    exact .inr (by simp)
  | unary => cases h
  | binary => cases h

/-- The scratch signal that a nested expression is computed into holds its value. -/
theorem Computes.supplies (h : Computes expr out temps steps) :
    Supplies expr (out :: temps) steps (.signal out) where
  outs := by
    obtain ⟨inner, hi, hp⟩ := h.outs
    rw [hi]
    exact (List.perm_append_singleton out inner).trans (hp.cons out)
  reads := by
    intro s hs
    cases hs
    exact .inl List.mem_cons_self
  value := by
    intro hn ht v
    exact h.value (List.nodup_cons.mp hn).2 (fun t hm => ht t (List.mem_cons_of_mem _ hm)) v

theorem Supplies.runAll_of_not_mem (h : Supplies expr temps steps operand) (hx : x ∉ temps) :
    Step.runAll v steps x = v x :=
  Step.runAll_of_not_mem fun hm => hx (h.outs.mem_iff.mp hm)

/-- The steps of both operands and then the operator compute a node. The right operand's steps leave
alone what the left one holds, and the left operand's steps leave alone what the right one reads. -/
theorem computes_binary {ltemps rtemps : List String} (h : op.arith? = some arith)
    (hl : Supplies left ltemps leftSteps first) (hr : Supplies right rtemps rightSteps second) :
    Computes (binary op left right false) out (ltemps ++ rtemps)
      (leftSteps ++ rightSteps ++ [⟨first, arith, second, out⟩]) where
  outs := by
    refine ⟨leftSteps.map Step.out ++ rightSteps.map Step.out, by simp, ?_⟩
    exact hl.outs.append hr.outs
  value := by
    intro hn ht v
    obtain ⟨hnl, hnr, hd⟩ := List.nodup_append.mp hn
    have hln : ∀ t ∈ ltemps ++ rtemps, left.names.contains t = false := by
      intro t hm
      have := ht t hm
      simp only [contains_names_binary, Bool.or_eq_false_iff] at this
      exact this.1
    have hrn : ∀ t ∈ ltemps ++ rtemps, right.names.contains t = false := by
      intro t hm
      have := ht t hm
      simp only [contains_names_binary, Bool.or_eq_false_iff] at this
      exact this.2
    have hfirst : first.eval (Step.runAll (Step.runAll v leftSteps) rightSteps) = left.eval v := by
      rw [← hl.value hnl (fun t hm => hln t (List.mem_append_left _ hm)) v]
      cases first with
      | constant value => rfl
      | signal s =>
        apply hr.runAll_of_not_mem
        intro hs
        rcases hl.reads s rfl with hm | hm
        · exact hd s hm s hs rfl
        · rw [hln s (List.mem_append_right _ hs)] at hm
          cases hm
    have hsecond : second.eval (Step.runAll (Step.runAll v leftSteps) rightSteps) =
        right.eval v := by
      rw [hr.value hnr (fun t hm => hrn t (List.mem_append_right _ hm))]
      apply eval_congr
      intro s hs
      apply hl.runAll_of_not_mem
      intro hm
      rw [hrn s (List.mem_append_left _ hm)] at hs
      cases hs
    simp only [Step.runAll_append]
    simp only [Step.runAll, List.foldl_cons, List.foldl_nil, Step.run, Valuation.set_self, Step.eval]
    simp only [Step.runAll] at hfirst hsecond
    rw [hfirst, hsecond, eval_binary, BinaryOp.eval_of_arith? h]
    rfl

theorem computes_leaf (h : expr.operand none = .ok operand) :
    Computes expr out [] [⟨operand, .add, .constant 0, out⟩] where
  outs := ⟨[], rfl, .nil⟩
  value := by
    intro hn ht v
    have hv := (supplies_leaf h).value hn ht v
    have hz : ∀ a : Int32, a + 0 = a := by grind
    simp only [Step.runAll, List.foldl_cons, List.foldl_nil, Step.run, Valuation.set_self,
      Step.eval, Arith.apply, Operand.eval] at hv ⊢
    rw [hv, hz]

theorem nodeCount_of_not_isBinary (h : Term expr) (hb : expr.isBinary = false) :
    expr.nodeCount = 0 := by
  cases h with
  | literal => rfl
  | name => rfl
  | binary => cases hb

/-- An operand needs one scratch signal for each of its nodes, the first one to hold its value. -/
theorem holder_count (h : Term expr) :
    (if expr.isBinary then 1 else 0) + (expr.nodeCount - 1) = expr.nodeCount := by
  cases h with
  | literal => rfl
  | name => rfl
  | binary =>
    simp only [isBinary, nodeCount, if_true]
    omega

theorem operand_of_not_isBinary (h : Term expr) (hb : expr.isBinary = false) :
    ∃ operand, expr.operand none = .ok operand := by
  cases h with
  | literal value => exact ⟨_, rfl⟩
  | name signal => exact ⟨_, rfl⟩
  | binary => cases hb

theorem draws_holder (expr : Expr) :
    Draws avoid (if expr.isBinary then 1 else 0)
      (fun names held => names = held.toList ∧ held.isSome = expr.isBinary) (expr.holder avoid) := by
  cases h : expr.isBinary with
  | false =>
    simp only [holder, h, Bool.false_eq_true, if_false]
    exact .pure ⟨rfl, rfl⟩
  | true =>
    simp only [holder, h, if_true]
    refine (Draws.fresh.map some).imp ?_
    rintro names held ⟨name, rfl, rfl⟩
    exact ⟨rfl, rfl⟩

/-- The steps of an operand, none if it has no scratch signal. -/
def heldSteps (avoid : NameSet) (expr : Expr) (held : Option String) : Scratch (List Step) :=
  match held with
  | some temp => expr.steps avoid temp
  | none => pure []

theorem steps_binary {negated : Bool} (h : op.arith? = some arith) :
    (binary op left right negated).steps avoid out = (do
      let leftHeld ← left.holder avoid
      let rightHeld ← right.holder avoid
      let leftSteps ← left.heldSteps avoid leftHeld
      let rightSteps ← right.heldSteps avoid rightHeld
      let first ← left.operand leftHeld
      let second ← right.operand rightHeld
      return leftSteps ++ rightSteps ++ [⟨first, arith, second, out⟩]) := by
  unfold steps
  simp only [h]
  congr
  funext leftHeld
  congr
  funext rightHeld
  cases leftHeld <;> cases rightHeld <;> rfl

/-- The steps of an operand draw what the operand still needs beside its own scratch signal. -/
theorem draws_held {held : Option String} (h : Term expr)
    (ih : ∀ out, Draws avoid (expr.nodeCount - 1) (Computes expr out) (expr.steps avoid out))
    (hh : held.isSome = expr.isBinary) :
    Draws avoid (expr.nodeCount - 1)
      (fun names steps => ∃ operand, expr.operand held = .ok operand ∧
        Supplies expr (held.toList ++ names) steps operand)
      (expr.heldSteps avoid held) := by
  cases held with
  | none =>
    obtain ⟨operand, ho⟩ := operand_of_not_isBinary h hh.symm
    rw [nodeCount_of_not_isBinary h hh.symm]
    exact .pure ⟨operand, ho, supplies_leaf ho⟩
  | some temp =>
    refine (ih temp).imp ?_
    intro names steps hc
    exact ⟨.signal temp, rfl, hc.supplies⟩

/-- Arithmetic is cut into steps that compute it, with one scratch signal for each node but the
root. -/
theorem draws_steps (h : Term expr) (out : String) :
    Draws avoid (expr.nodeCount - 1) (Computes expr out) (expr.steps avoid out) := by
  induction h generalizing out with
  | literal value => exact Draws.pure (computes_leaf rfl)
  | name signal => exact Draws.pure (computes_leaf rfl)
  | @binary op left right h hl hr ihl ihr =>
    obtain ⟨arith, ha⟩ := arith?_of_tier h
    have hn : (binary op left right false).nodeCount - 1 =
        (if left.isBinary then 1 else 0) + ((if right.isBinary then 1 else 0) +
          (left.nodeCount - 1 + (right.nodeCount - 1))) := by
      have hcl := holder_count hl
      have hcr := holder_count hr
      simp only [nodeCount]
      omega
    rw [steps_binary ha, hn]
    apply Draws.bind (draws_holder left)
    rintro _ leftHeld ⟨rfl, hhl⟩
    apply Draws.bind (draws_holder right)
    rintro _ rightHeld ⟨rfl, hhr⟩
    apply Draws.bind (draws_held hl ihl hhl)
    rintro ltemps leftSteps ⟨first, hf, hsl⟩
    apply Draws.bind (n := right.nodeCount - 1) (m := 0) (draws_held hr ihr hhr)
    rintro rtemps rightSteps ⟨second, hs, hsr⟩
    apply Draws.bind_lift hf
    apply Draws.bind_lift hs
    apply Draws.pure
    apply (computes_binary ha hsl hsr).perm
    rw [List.append_nil, List.append_assoc]
    exact (List.perm_append_comm_assoc _ _ _).append_left _

end Expr

end CircuitScript
