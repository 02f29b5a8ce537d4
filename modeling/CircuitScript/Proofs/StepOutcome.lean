import CircuitScript.Proofs.ConstructShape
/-!
When an expression can be cut into steps, and what comes of it. The steps look at operators and leaves
only, so whether they exist depends on the shape of the expression and on how many scratch signals are
free; a mark on a node changes the value of the expression but not its steps.
-/
namespace CircuitScript

theorem Scope.not_taken_of_mem_free {scope : Scope} {avoid : NameSet} {x : String}
    (h : x ∈ scope.free avoid) : scope.isTaken x = false := by
  simp only [free, List.mem_filter, Bool.and_eq_true, Bool.not_eq_true'] at h
  exact h.2.1

namespace Expr

open Scratch (Draws keeps_lift)

variable {avoid : NameSet} {expr : Expr} {scope after : Scope} {out : String}
  {held : Option String} {steps : List Step} {temps : List String}

/-- Only the four operators of arithmetic stand in the expression, marked or not. -/
def Calculable : Expr → Prop
  | literal _ | name _ => True
  | unary _ _ => False
  | binary op left right _ => op.tier = .arithmetic ∧ left.Calculable ∧ right.Calculable

/-- No node is marked as negated. -/
def Unmarked : Expr → Prop
  | literal _ | name _ => True
  | unary _ argument => argument.Unmarked
  | binary _ left right negated => negated = false ∧ left.Unmarked ∧ right.Unmarked

/-- The expression with its marks taken off. -/
def unmark : Expr → Expr
  | literal value => literal value
  | name signal => name signal
  | unary op argument => unary op argument.unmark
  | binary op left right _ => binary op left.unmark right.unmark false

@[simp] theorem nodeCount_unmark (expr : Expr) : expr.unmark.nodeCount = expr.nodeCount := by
  induction expr with
  | literal value => rfl
  | name signal => rfl
  | unary op argument ih => exact ih
  | binary op left right negated ihl ihr => simp only [unmark, nodeCount, ihl, ihr]

theorem unmark_eq (h : expr.Unmarked) : expr.unmark = expr := by
  induction expr with
  | literal value => rfl
  | name signal => rfl
  | unary op argument ih => rw [unmark, ih h]
  | binary op left right negated ihl ihr => rw [unmark, ihl h.2.1, ihr h.2.2, h.1]

theorem term_unmark (h : expr.Calculable) : Term expr.unmark := by
  induction expr with
  | literal value => exact .literal value
  | name signal => exact .name signal
  | unary op argument => exact h.elim
  | binary op left right negated ihl ihr => exact .binary h.1 (ihl h.2.1) (ihr h.2.2)

theorem operand_unmark (held : Option String) (expr : Expr) :
    expr.unmark.operand held = expr.operand held := by
  cases held <;> cases expr <;> rfl

theorem holder_unmark (expr : Expr) : expr.unmark.holder avoid = expr.holder avoid := by
  cases expr <;> rfl

/-- Marks leave no trace in the steps. -/
theorem steps_unmark (expr : Expr) (out : String) :
    expr.unmark.steps avoid out = expr.steps avoid out := by
  induction expr generalizing out with
  | literal value => rfl
  | name signal => rfl
  | unary op argument => rfl
  | binary op left right negated ihl ihr =>
    have hheld : ∀ {side : Expr}, (∀ out, side.unmark.steps avoid out = side.steps avoid out) →
        ∀ held, side.unmark.heldSteps avoid held = side.heldSteps avoid held := by
      intro side h held
      cases held with
      | none => rfl
      | some temp => exact h temp
    rw [unmark]
    cases ha : op.arith? with
    | none => simp only [steps, ha]
    | some arith =>
      rw [steps_binary ha, steps_binary ha]
      simp only [holder_unmark, operand_unmark, hheld ihl, hheld ihr]

/-- Arithmetic is cut into steps that compute it without regard to marks. -/
theorem draws_steps_unmark (h : expr.Calculable) (out : String) :
    Draws avoid (expr.nodeCount - 1) (Computes expr.unmark out) (expr.steps avoid out) := by
  have hd := @draws_steps avoid _ (term_unmark h) out
  rwa [nodeCount_unmark, steps_unmark] at hd

theorem calculable_of_operand {operand : Operand} (h : expr.operand none = .ok operand) :
    expr.Calculable := by
  cases expr with
  | literal value => trivial
  | name signal => trivial
  | unary => cases h
  | binary => cases h

theorem calculable_heldSteps (h : ∀ out, Gives (fun _ => expr.Calculable) (expr.steps avoid out)) :
    Gives (fun _ => held ≠ none → expr.Calculable) (expr.heldSteps avoid held) := by
  cases held with
  | none => exact .pure fun h => absurd rfl h
  | some temp => exact (h temp).imp fun _ hc _ => hc

theorem calculable_of_held {operand : Operand} (hs : held ≠ none → expr.Calculable)
    (ho : expr.operand held = .ok operand) : expr.Calculable := by
  cases held with
  | none => exact calculable_of_operand ho
  | some temp => exact hs (by simp)

/-- Nothing but arithmetic is cut into steps. -/
theorem calculable_steps (expr : Expr) (out : String) :
    Gives (fun _ => expr.Calculable) (expr.steps avoid out) := by
  induction expr generalizing out with
  | literal | name | unary =>
    exact .bind (keeps_lift fun _ h => calculable_of_operand h) fun _ h => .pure h
  | binary op left right negated ihl ihr =>
    cases ha : op.arith? with
    | none =>
      simp only [Expr.steps, ha]
      exact .throw
    | some arith =>
      have htier : op.tier = .arithmetic := by cases op <;> first | rfl | cases ha
      rw [steps_binary ha]
      refine .andThen fun leftHeld => .andThen fun rightHeld => ?_
      refine .bind (calculable_heldSteps ihl) fun leftSteps hls => ?_
      refine .bind (calculable_heldSteps ihr) fun rightSteps hrs => ?_
      refine .bind (keeps_lift fun _ hf => calculable_of_held hls hf) fun first hl => ?_
      refine .bind (keeps_lift fun _ hs => calculable_of_held hrs hs) fun second hr => ?_
      exact .pure ⟨htier, hl, hr⟩

/-- As many steps as there are nodes, and one for a leaf; the last one writes the output. -/
theorem Computes.length (h : Computes expr out temps steps) :
    steps.length = temps.length + 1 ∧ steps.getLast?.map Step.out = some out := by
  obtain ⟨inner, houts, hperm⟩ := h.outs
  constructor
  · rw [← List.length_map Step.out, houts, List.length_append, hperm.length_eq]
    rfl
  · rw [← List.getLast?_map, houts, List.getLast?_concat]

theorem Computes.runAll_of_not_mem {v : Valuation} {x : String} (h : Computes expr out temps steps)
    (hout : x ≠ out) (hx : x ∉ temps) : Step.runAll v steps x = v x := by
  obtain ⟨inner, houts, hperm⟩ := h.outs
  apply Step.runAll_of_not_mem
  rw [houts, List.mem_append, List.mem_singleton]
  rintro (hm | hm)
  · exact hx (hperm.mem_iff.mp hm)
  · exact hout hm

/-- The scratch signals that the steps of an expression take: the first ones that are free, one for
each node but the root. -/
def stepTemps (expr : Expr) (avoid : NameSet) (scope : Scope) : List String :=
  (scope.free avoid).take (expr.nodeCount - 1)

theorem length_stepTemps (hn : expr.nodeCount - 1 ≤ (scope.free avoid).length) :
    (expr.stepTemps avoid scope).length = expr.nodeCount - 1 := by
  rw [stepTemps, List.length_take]
  omega

theorem steps_of_calculable (hc : expr.Calculable)
    (hn : expr.nodeCount - 1 ≤ (scope.free avoid).length) (out : String) :
    ∃ steps, (expr.steps avoid out).runIn scope =
      (.ok steps, scope.reserve (expr.stepTemps avoid scope)) ∧
      Computes expr.unmark out (expr.stepTemps avoid scope) steps := by
  have hsplit := (List.take_append_drop (expr.nodeCount - 1) (scope.free avoid)).symm
  exact (draws_steps_unmark hc out).enough hsplit (length_stepTemps hn)

theorem calculable_of_steps (h : (expr.steps avoid out).runIn scope = (.ok steps, after)) :
    expr.Calculable ∧ expr.nodeCount - 1 ≤ (scope.free avoid).length := by
  have hc := ((calculable_steps expr out).ok trivial (outcome_eq_ok_iff.mpr h)).1
  refine ⟨hc, Nat.le_of_not_lt fun hshort => ?_⟩
  obtain ⟨_, hfail⟩ := (draws_steps_unmark hc out).short hshort
  rw [h] at hfail
  cases hfail

/-- What an expression reads is avoided or taken, so it is no scratch signal of its steps. -/
theorem not_read_of_mem_stepTemps
    (hread : ∀ x, expr.names.contains x = true → avoid.contains x = true ∨ scope.isTaken x = true) :
    ∀ temp ∈ expr.stepTemps avoid scope, expr.names.contains temp = false := by
  intro temp htemp
  have hfree := List.mem_of_mem_take htemp
  refine Bool.eq_false_iff.mpr fun hname => ?_
  rcases hread temp hname with h | h
  · rw [Scope.not_avoided_of_mem_free hfree] at h
    cases h
  · rw [Scope.not_taken_of_mem_free hfree] at h
    cases h

/-- An expression is cut into steps exactly if it is arithmetic throughout and there are free scratch
signals for all its nodes but the root. Then there is one step for each node, the last one writes the
output, and the first free scratch signals are reserved, as many as needed and nothing else. If no
free scratch signal is read, the steps give the output the value of the expression and change no
other signal but those reserved, whatever the output is. -/
theorem steps_outcome (expr : Expr) (out : String) (avoid : NameSet) (scope : Scope) :
    ((∃ steps after, (expr.steps avoid out).runIn scope = (.ok steps, after)) ↔
      expr.Calculable ∧ expr.nodeCount - 1 ≤ (scope.free avoid).length) ∧
    ∀ steps after, (expr.steps avoid out).runIn scope = (.ok steps, after) →
      steps.length = max 1 expr.nodeCount ∧ steps.getLast?.map Step.out = some out ∧
      after = scope.reserve (expr.stepTemps avoid scope) ∧
      ((∀ x, expr.names.contains x = true → avoid.contains x = true ∨ scope.isTaken x = true) →
        expr.Unmarked → ∀ v,
          Step.runAll v steps out = expr.eval v ∧
          ∀ x, x ≠ out → x ∉ expr.stepTemps avoid scope → Step.runAll v steps x = v x) := by
  refine ⟨⟨?_, ?_⟩, ?_⟩
  · rintro ⟨steps, after, hrun⟩
    exact calculable_of_steps hrun
  · rintro ⟨hc, hn⟩
    obtain ⟨steps, hrun, -⟩ := steps_of_calculable hc hn out
    exact ⟨steps, _, hrun⟩
  · intro steps after hrun
    obtain ⟨hc, hn⟩ := calculable_of_steps hrun
    obtain ⟨found, hfound, hcomp⟩ := steps_of_calculable hc hn out
    rw [hrun] at hfound
    cases hfound
    refine ⟨?_, hcomp.length.2, rfl, fun hread hmarks v => ⟨?_, fun x hout hx => ?_⟩⟩
    · rw [hcomp.length.1, length_stepTemps hn]
      omega
    · rw [unmark_eq hmarks] at hcomp
      exact hcomp.value (Scope.nodup_free.sublist (List.take_sublist _ _))
        (not_read_of_mem_stepTemps hread) v
    · exact hcomp.runAll_of_not_mem hout hx

/-- The output may be the scratch signal of an operand: `(a + b) * c` into `signal_A`. -/
example : ((plain .mul (plain .add (name "a") (name "b")) (name "c")).steps .empty "signal_A").runIn
      .empty =
    (.ok [⟨.signal "a", .add, .signal "b", "signal_A"⟩,
        ⟨.signal "signal_A", .mul, .signal "c", "signal_A"⟩],
      Scope.empty.reserve ["signal_A"]) := rfl

end Expr

end CircuitScript
