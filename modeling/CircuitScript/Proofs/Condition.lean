import CircuitScript.Proofs.StepSequence
/-!
Conditions as trees of comparisons. A comparison reads what the series on its sides have computed,
and the members of a logical node are counted; the tree holds exactly when the condition does.
-/
namespace CircuitScript

open Scratch

variable {v w : Valuation} {x out : String} {names : List String} {avoid : NameSet}
  {expr left right : Expr} {op parent : BinaryOp} {negated : Bool} {side first second : Side}

/-- What is on the signals once one side of a comparison has put its result among them. A series
runs its steps in order from `v` and puts out what its last step writes. -/
def Side.publish (v w : Valuation) : Side → Valuation
  | value _ => w
  | series _ body =>
    match lastOut? body with
    | some out => w.set out (Step.runAll v (bodySteps body) out)
    | none => w

/-- What the decider of a comparison sees. -/
def decided (v : Valuation) (left right : Side) : Valuation := right.publish v (left.publish v v)

mutual

/-- A construct for a condition writes one to its signal. A logical node compares the number of its
members that do with a threshold. -/
def Node.holds (v : Valuation) : Node → Bool
  | .compare op negated left right _ =>
    op.holds (left.operand.eval (decided v left right)) (right.operand.eval (decided v left right))
      != negated
  | .and true body _ => decide (holdCount v body < body.length)
  | .and false body _ => decide (holdCount v body = body.length)
  | .or true body _ => decide (holdCount v body = 0)
  | .or false body _ => decide (0 < holdCount v body)
  | _ => false

/-- The number of members that hold. -/
def holdCount (v : Valuation) : List Node → Nat
  | [] => 0
  | node :: rest => (if node.holds v then 1 else 0) + holdCount v rest

end

theorem holdCount_eq_countP (body : List Node) :
    holdCount v body = body.countP fun node => node.holds v := by
  induction body with
  | nil => rfl
  | cons node rest ih =>
    rw [holdCount, ih, List.countP_cons, Nat.add_comm]

/-- Members under one logical operator. -/
def joined (op : BinaryOp) (v : Valuation) (body : List Node) : Bool :=
  if op = .and then body.all fun node => node.holds v else body.any fun node => node.holds v

theorem joined_singleton (node : Node) : joined op v [node] = node.holds v := by
  simp [joined]

theorem joined_append (h : op.tier = .logical) {first second : List Node}
    (hl : joined op v first = left.holds v) (hr : joined op v second = right.holds v) :
    joined op v (first ++ second) = (Expr.binary op left right false).holds v := by
  rw [Expr.holds_logical h, ← hl, ← hr]
  unfold joined
  split <;> simp

/-- As many members hold as there are exactly when all of them hold. -/
theorem holds_and (body : List Node) :
    (Node.and negated body out).holds v = ((body.all fun node => node.holds v) != negated) := by
  have hall : holdCount v body = body.length ↔ (body.all fun node => node.holds v) = true := by
    rw [holdCount_eq_countP, List.countP_eq_length, List.all_eq_true]
  have hle : holdCount v body ≤ body.length := by
    rw [holdCount_eq_countP]
    exact List.countP_le_length
  generalize (body.all fun node => node.holds v) = flag at hall
  cases negated <;> cases flag <;> simp_all [Node.holds]
  omega

theorem holds_or (body : List Node) :
    (Node.or negated body out).holds v = ((body.any fun node => node.holds v) != negated) := by
  have hany : 0 < holdCount v body ↔ (body.any fun node => node.holds v) = true := by
    rw [holdCount_eq_countP, List.countP_pos_iff, List.any_eq_true]
  generalize (body.any fun node => node.holds v) = flag at hany
  cases negated <;> cases flag <;> simp_all [Node.holds]
  omega

/-- Counting members against the threshold of an operator joins them. -/
theorem holds_group (h : op.tier = .logical) (body : List Node) :
    (Expr.group op negated body out).holds v = (joined op v body != negated) := by
  cases op with
  | and => exact holds_and body
  | or => exact holds_or body
  | _ => cases h

/-- One side of a comparison stands for an expression: it touches nothing but the scratch signals
`names`, and its decider reads one of these or a signal of the expression. -/
structure Represents (expr : Expr) (names : List String) (side : Side) : Prop where
  value : ∀ v w, (∀ x, expr.names.contains x = true → w x = v x) →
    side.operand.eval (side.publish v w) = expr.eval v
  frame : ∀ v w x, x ∉ names → side.publish v w x = w x
  reads : ∀ s, side.operand = .signal s → s ∈ names ∨ expr.names.contains s = true

theorem represents_literal (value : Literal) :
    Represents (.literal value) [] (.value (.constant value.toInt32)) where
  value := fun _ _ _ => rfl
  frame := fun _ _ _ _ => rfl
  reads := by
    intro s hs
    cases hs

theorem represents_name (signal : String) :
    Represents (.name signal) [] (.value (.signal signal)) where
  value := fun _ _ h => h signal (by simp)
  frame := fun _ _ _ _ => rfl
  reads := by
    intro s hs
    cases hs
    exact .inr (by simp)

theorem represents_series {temp : String} {temps : List String} {steps : List Step} (scope : Scope)
    (h : expr.Computes temp temps steps) (hn : temps.Nodup)
    (ht : ∀ t ∈ temps, expr.names.contains t = false) :
    Represents expr (temp :: temps) (.series scope (steps.map .step)) := by
  obtain ⟨inner, ho, -⟩ := h.outs
  have hl := lastOut?_map_step ho
  have hp : ∀ v w, (Side.series scope (steps.map .step)).publish v w = w.set temp (expr.eval v) := by
    intro v w
    simp only [Side.publish, hl, bodySteps_map_step, h.value hn ht v]
  have hop : (Side.series scope (steps.map .step)).operand = .signal temp := by
    simp [Side.operand, hl]
  refine ⟨?_, ?_, ?_⟩
  · intro v w _
    rw [hp, hop]
    exact Valuation.set_self temp _
  · intro v w x hx
    rw [hp]
    exact Valuation.set_of_ne fun he => hx (he ▸ List.mem_cons_self)
  · intro s hs
    rw [hop] at hs
    cases hs
    exact .inl List.mem_cons_self

namespace Expr

/-- The number of arithmetic nodes. -/
def arithmeticCount : Expr → Nat
  | literal _ | name _ => 0
  | unary _ argument => argument.arithmeticCount
  | binary op left right _ =>
    left.arithmeticCount + right.arithmeticCount + if op.tier = .arithmetic then 1 else 0

theorem arithmeticCount_of_term (h : Term expr) : expr.arithmeticCount = expr.nodeCount := by
  induction h with
  | literal => rfl
  | name => rfl
  | binary h _ _ ihl ihr => simp [arithmeticCount, nodeCount, h, ihl, ihr]

/-- A set of signals to avoid covers what an expression reads. -/
def CoveredBy (avoid : NameSet) (expr : Expr) : Prop :=
  ∀ x, expr.names.contains x = true → avoid.contains x = true

theorem CoveredBy.not_mem (h : CoveredBy avoid expr)
    (hav : ∀ t ∈ names, avoid.contains t = false) : ∀ t ∈ names, expr.names.contains t = false := by
  intro t ht
  cases hc : expr.names.contains t with
  | false => rfl
  | true => rw [← hav t ht, h t hc]

theorem CoveredBy.of_left (h : CoveredBy avoid (binary op left right negated)) :
    CoveredBy avoid left := fun x hx => h x (by simp [hx])

theorem CoveredBy.of_right (h : CoveredBy avoid (binary op left right negated)) :
    CoveredBy avoid right := fun x hx => h x (by simp [hx])

theorem draws_side (h : Term expr) (hc : CoveredBy avoid expr) :
    Draws avoid expr.nodeCount (Represents expr) (expr.side avoid) := by
  cases h with
  | literal value => exact .pure (represents_literal value)
  | name signal => exact .pure (represents_name signal)
  | @binary op left right h hl hr =>
    have hn : (binary op left right false).nodeCount =
        1 + ((binary op left right false).nodeCount - 1 + 0) := by
      simp only [nodeCount]
      omega
    rw [hn]
    simp only [side, h, if_true]
    apply Draws.of_distinct
    apply Draws.bind Draws.fresh
    rintro _ temp rfl
    apply Draws.bind (draws_steps (.binary h hl hr) temp)
    intro temps steps hs
    apply Draws.bind_get
    intro scope
    apply Draws.pure
    intro hnd hav
    rw [List.append_nil] at hnd hav ⊢
    have ht := hc.not_mem hav
    exact represents_series scope hs (List.nodup_cons.mp hnd).2 fun t hm =>
      ht t (List.mem_cons_of_mem _ hm)

/-- The decider sees both sides as they were computed: neither disturbs what the other one reads. -/
theorem holds_compare {lnames rnames : List String} (comparator : Comparator)
    (hl : Represents left lnames first) (hr : Represents right rnames second)
    (hn : (lnames ++ rnames).Nodup) (hcl : ∀ t ∈ lnames ++ rnames, left.names.contains t = false)
    (hcr : ∀ t ∈ lnames ++ rnames, right.names.contains t = false) :
    (Node.compare comparator negated first second out).holds v =
      (comparator.holds (left.eval v) (right.eval v) != negated) := by
  have hsecond : second.operand.eval (decided v first second) = right.eval v := by
    apply hr.value
    intro x hx
    apply hl.frame
    intro hm
    rw [hcr x (List.mem_append_left _ hm)] at hx
    cases hx
  have hfirst : first.operand.eval (decided v first second) = left.eval v := by
    rw [← hl.value v v fun x _ => rfl]
    cases ho : first.operand with
    | constant value => rfl
    | signal s =>
      apply hr.frame
      intro hm
      rcases hl.reads s ho with hs | hs
      · exact (List.nodup_append.mp hn).2.2 s hs s hm rfl
      · rw [hcl s (List.mem_append_right _ hm)] at hs
        cases hs
  rw [Node.holds, hfirst, hsecond]

theorem holds_swapped (comparator : Comparator) (a b : Int32) :
    comparator.swapped.holds b a = comparator.holds a b := by
  cases comparator <;> simp [Comparator.swapped, Comparator.holds, eq_comm]

theorem draws_comparison (comparator : Comparator) (hl : Term left) (hr : Term right)
    (hcl : CoveredBy avoid left) (hcr : CoveredBy avoid right) :
    Draws avoid (left.nodeCount + right.nodeCount)
      (fun _ node => ∀ v, node.holds v =
        (comparator.holds (left.eval v) (right.eval v) != negated))
      (comparison avoid out comparator negated left right) := by
  unfold comparison
  cases hs : left.isLiteral && !right.isLiteral with
  | false =>
    simp only [Bool.false_eq_true, if_false]
    apply Draws.of_distinct
    apply Draws.bind (draws_side hl hcl)
    intro lnames first hf
    apply Draws.bind (n := right.nodeCount) (m := 0) (draws_side hr hcr)
    intro rnames second hg
    apply Draws.pure
    intro hn hav v
    rw [List.append_nil] at hn hav
    exact holds_compare comparator hf hg hn (hcl.not_mem hav) (hcr.not_mem hav)
  | true =>
    simp only [if_true]
    rw [Nat.add_comm]
    apply Draws.of_distinct
    apply Draws.bind (draws_side hr hcr)
    intro rnames first hf
    apply Draws.bind (n := left.nodeCount) (m := 0) (draws_side hl hcl)
    intro lnames second hg
    apply Draws.pure
    intro hn hav v
    rw [List.append_nil] at hn hav
    rw [holds_compare _ hf hg hn (hcr.not_mem hav) (hcl.not_mem hav), holds_swapped]

/-- A bare value holds unless it equals zero. -/
theorem holds_eq_not_eq_zero (expr : Expr) :
    (Comparator.eq.holds (expr.eval v) ((int 0).eval v) != true) = expr.holds v := by
  simp [Comparator.holds, holds, int, eval, Literal.toInt32, bne]
  rfl

theorem draws_value (h : Term expr) (hc : CoveredBy avoid expr) :
    Draws avoid expr.arithmeticCount (fun _ node => ∀ v, node.holds v = expr.holds v)
      (comparison avoid out .eq true expr (int 0)) := by
  rw [arithmeticCount_of_term h]
  refine (draws_comparison .eq h (.literal _) hc fun x hx => ?_).imp fun names node hp v => ?_
  · simp at hx
  · rw [hp]
    exact holds_eq_not_eq_zero expr

theorem draws_relation {comparator : Comparator} (h : op.comparator? = some comparator)
    (hl : Term left) (hr : Term right) (hc : CoveredBy avoid (binary op left right negated)) :
    Draws avoid (binary op left right negated).arithmeticCount
      (fun _ node => ∀ v, node.holds v = (binary op left right negated).holds v)
      (comparison avoid out comparator negated left right) := by
  have hn : (binary op left right negated).arithmeticCount = left.nodeCount + right.nodeCount := by
    simp [arithmeticCount, arithmeticCount_of_term hl, arithmeticCount_of_term hr,
      tier_of_comparator? h]
  rw [hn]
  refine (draws_comparison comparator hl hr hc.of_left hc.of_right).imp fun names node hp v => ?_
  rw [hp, holds_binary, BinaryOp.eval_of_comparator? h, truth_bne_zero]

def isLogical : Expr → Bool
  | binary op _ _ _ => op.tier = .logical
  | _ => false

theorem draws_testNode (h : Test expr) (hn : expr.isLogical = false) (hc : CoveredBy avoid expr) :
    Draws avoid expr.arithmeticCount (fun _ node => ∀ v, node.holds v = expr.holds v)
      (testNode avoid out expr) := by
  cases h with
  | value h hlit =>
    cases h with
    | literal value => cases hlit
    | name signal => exact draws_value (.name signal) hc
    | @binary op left right h hl hr =>
      have ht : op.tier ≠ .relational := by simp [h]
      simp only [testNode, if_neg ht]
      exact draws_value (.binary h hl hr) hc
  | relation comparator negated h hl hr _ =>
    simp only [testNode, tier_of_comparator? h, if_true, h]
    exact draws_relation h hl hr hc
  | logic negated h _ _ => simp [isLogical, h] at hn

theorem isLogical_of_term (h : Term expr) : expr.isLogical = false := by
  cases h with
  | binary h _ _ => simp [isLogical, h]
  | _ => rfl

theorem isLogical_of_comparator? {comparator : Comparator} (h : op.comparator? = some comparator) :
    (binary op left right negated).isLogical = false := by
  simp [isLogical, tier_of_comparator? h]

theorem conditionNode_of_not_isLogical (h : expr.isLogical = false) :
    expr.conditionNode avoid out = testNode avoid out expr := by
  cases expr with
  | binary op left right negated =>
    have ht : op.tier ≠ .logical := by simpa [isLogical] using h
    simp [conditionNode, ht]
  | _ => simp [conditionNode]

theorem members_of_not_isLogical (h : expr.isLogical = false) :
    expr.members avoid out parent = (do return [← testNode avoid out expr]) := by
  cases expr with
  | binary op left right negated =>
    have ht : op.tier ≠ .logical := by simpa [isLogical] using h
    simp [members, ht]
  | _ => simp [members]

theorem draws_member (h : Test expr) (hn : expr.isLogical = false) (hc : CoveredBy avoid expr)
    (parent : BinaryOp) :
    Draws avoid expr.arithmeticCount (fun _ nodes => ∀ v, joined parent v nodes = expr.holds v)
      (expr.members avoid out parent) := by
  rw [members_of_not_isLogical hn]
  apply Draws.bind (m := 0) (draws_testNode h hn hc)
  intro names node hp
  exact .pure fun v => (joined_singleton node).trans (hp v)

theorem arithmeticCount_logic (h : op.tier = .logical) :
    (binary op left right negated).arithmeticCount =
      left.arithmeticCount + (right.arithmeticCount + 0) := by
  simp [arithmeticCount, h]

theorem holds_group_append (h : op.tier = .logical) {leftNodes rightNodes : List Node}
    (hl : joined op v leftNodes = left.holds v) (hr : joined op v rightNodes = right.holds v) :
    (group op negated (leftNodes ++ rightNodes) out).holds v =
      (binary op left right negated).holds v := by
  rw [holds_group h, joined_append h hl hr, holds_binary, holds_binary, Bool.bne_false]

/-- The members that an expression contributes hold together, under the operator of the group they
join, exactly when it does. -/
theorem draws_members (h : Test expr) (hc : CoveredBy avoid expr) (parent : BinaryOp) :
    Draws avoid expr.arithmeticCount (fun _ nodes => ∀ v, joined parent v nodes = expr.holds v)
      (expr.members avoid out parent) := by
  induction h generalizing parent with
  | value h hlit => exact draws_member (.value h hlit) (isLogical_of_term h) hc parent
  | relation comparator negated h hl hr hlit =>
    exact draws_member (.relation comparator negated h hl hr hlit) (isLogical_of_comparator? h) hc
      parent
  | @logic op left right negated h _ _ ihl ihr =>
    rw [arithmeticCount_logic h]
    simp only [members, h, if_true]
    apply Draws.bind (ihl hc.of_left op)
    intro lnames leftNodes hl
    apply Draws.bind (ihr hc.of_right op)
    intro rnames rightNodes hr
    -- A group that is not negated melts into a parent with the same operator.
    split
    · next hp =>
      obtain ⟨rfl, rfl⟩ := hp
      exact .pure fun v => joined_append h (hl v) (hr v)
    · exact .pure fun v => (joined_singleton _).trans (holds_group_append h (hl v) (hr v))

theorem draws_conditionNode (h : Test expr) (hc : CoveredBy avoid expr) :
    Draws avoid expr.arithmeticCount (fun _ node => ∀ v, node.holds v = expr.holds v)
      (expr.conditionNode avoid out) := by
  cases h with
  | value h hlit =>
    rw [conditionNode_of_not_isLogical (isLogical_of_term h)]
    exact draws_testNode (.value h hlit) (isLogical_of_term h) hc
  | relation comparator negated h hl hr hlit =>
    rw [conditionNode_of_not_isLogical (isLogical_of_comparator? h)]
    exact draws_testNode (.relation comparator negated h hl hr hlit) (isLogical_of_comparator? h) hc
  | @logic op left right negated h hl hr =>
    rw [arithmeticCount_logic h]
    simp only [conditionNode, h, if_true]
    apply Draws.bind (draws_members hl hc.of_left op)
    intro lnames leftNodes hl
    apply Draws.bind (draws_members hr hc.of_right op)
    intro rnames rightNodes hr
    exact .pure fun v => holds_group_append h (hl v) (hr v)

/-- A condition that is not decided beforehand takes one scratch signal for its result and one for
each arithmetic node. -/
theorem draws_condition (h : Test expr) :
    Draws expr.names (1 + (expr.arithmeticCount + 0))
      (fun _ result => ∀ v, result.1.holds v = expr.holds v)
      (do
        let out ← Scratch.fresh expr.names
        return (← conditionNode expr.names out expr, out)) := by
  apply Draws.bind Draws.fresh
  rintro _ out rfl
  apply Draws.bind (draws_conditionNode h fun x hx => hx)
  intro names node hp
  exact .pure hp

theorem condition_of_literal? {scope : Scope} {value : Literal}
    (h : (expr.simplify scope.aliases .logical).literal? = some value) :
    expr.condition.runIn scope = (.error (.structural (.constantCondition value) none), scope) := by
  simp only [condition, runIn_bind, runIn_get, h]
  rfl

theorem message_constantCondition (value : Literal) :
    (Error.structural (.constantCondition value) none).message =
      "Structural error: Condition always evaluates to " ++ value.text := by
  have hm : (Error.structural (.constantCondition value) none).message =
      "Structural error: " ++ ("Condition always evaluates to " ++ value.text) ++ "" := rfl
  rw [hm, String.append_empty, ← String.append_assoc]
  simp only [String.reduceAppend]

theorem condition_of_literal?_eq_none {scope : Scope}
    (h : (expr.simplify scope.aliases .logical).literal? = none) :
    expr.condition.runIn scope =
      (do
        let out ← Scratch.fresh (expr.simplify scope.aliases .logical).names
        return (← conditionNode (expr.simplify scope.aliases .logical).names out
          (expr.simplify scope.aliases .logical), out) : Scratch (Node × String)).runIn scope := by
  simp only [condition, runIn_bind, runIn_get, h]

theorem condition_of_test {scope : Scope} (h : Test (expr.simplify scope.aliases .logical)) :
    expr.condition.runIn scope =
      (do
        let out ← Scratch.fresh (expr.simplify scope.aliases .logical).names
        return (← conditionNode (expr.simplify scope.aliases .logical).names out
          (expr.simplify scope.aliases .logical), out) : Scratch (Node × String)).runIn scope :=
  condition_of_literal?_eq_none (literal?_of_test h)

/-- A condition that is decided beforehand is refused, with its value in the message. Any other
becomes a construct that holds exactly when the condition does, unless too few scratch signals are
left. -/
theorem condition_outcome (he : expr.Stratified) (scope : Scope) :
    match (expr.condition.runIn scope).1 with
    | .ok (node, _) =>
      (expr.simplify scope.aliases .logical).arithmeticCount <
        (scope.free (expr.simplify scope.aliases .logical).names).length ∧
      ∀ v, node.holds v = (expr.rename scope.resolve).holds v
    | .error error =>
      (∃ value, error = .structural (.constantCondition value) none ∧
        error.message = "Structural error: Condition always evaluates to " ++ value.text ∧
        ∀ v, (expr.rename scope.resolve).holds v = value.truthy) ∨
      ((scope.free (expr.simplify scope.aliases .logical).names).length ≤
          (expr.simplify scope.aliases .logical).arithmeticCount ∧
        error = .exhausted scratchSignals.length none) := by
  have hv : ∀ v, (expr.simplify scope.aliases .logical).holds v =
      (expr.rename scope.resolve).holds v := fun v => holds_simplify he
  cases hl : (expr.simplify scope.aliases .logical).literal? with
  | some value =>
    rw [condition_of_literal? hl]
    dsimp only
    refine .inl ⟨value, rfl, message_constantCondition value, fun v => ?_⟩
    · rw [← hv, literal?_eq_some hl, holds_literal]
  | none =>
    have ht := test_of_settled (settled_simplify he) hl
    rw [condition_of_test ht]
    obtain ⟨⟨node, out⟩, names, hn, -, -, hr, hp⟩ | ⟨hn, after, hr⟩ :=
      (draws_condition ht).outcome scope
    · rw [hr]
      exact ⟨by omega, fun v => (hp v).trans (hv v)⟩
    · rw [hr]
      exact .inr ⟨by omega, rfl⟩

/-- `!(a + b < 3 && c) || 2 * d == a`, where `c` is an alias. -/
def mixedCondition : Expr :=
  .binary .or
    (.unary .not (.binary .and
      (.binary .lt (.binary .add (.name "a") (.name "b") false) (.literal (.int 3)) false)
      (.name "c") false))
    (.binary .eq (.binary .mul (.literal (.int 2)) (.name "d") false) (.name "a") false) false

def ironScope : Scope := ⟨Dict.empty.insert "c" "iron", .empty⟩

theorem condition_outcome_mixedCondition :
    mixedCondition.Stratified ∧
    ∃ node out after, mixedCondition.condition.runIn ironScope =
      (.ok (node, out), after) ∧
      ∀ v, node.holds v =
        (!(decide (v "a" + v "b" < 3) && v "iron" != 0) || 2 * v "d" == v "a") := by
  have he : mixedCondition.Stratified :=
    .logic false rfl
      (.not (.logic false rfl
        (.relation false rfl (.binary rfl (.name _) (.name _)) (.literal _))
        (.arithmetic (.name _))))
      (.relation false rfl (.binary rfl (.literal _) (.name _)) (.name _))
  have h := condition_outcome he ironScope
  have hr : ∃ node out after, mixedCondition.condition.runIn ironScope =
      (.ok (node, out), after) := ⟨_, _, _, rfl⟩
  obtain ⟨node, out, after, hr⟩ := hr
  rw [hr] at h
  refine ⟨he, node, out, after, hr, fun v => (h.2 v).trans ?_⟩
  have ha : ironScope.resolve "a" = "a" := by decide
  have hb : ironScope.resolve "b" = "b" := by decide
  have hc : ironScope.resolve "c" = "iron" := by decide
  have hd : ironScope.resolve "d" = "d" := by decide
  simp only [mixedCondition, rename, ha, hb, hc, hd, holds, eval, BinaryOp.eval, Literal.toInt32]
  simp

end Expr

end CircuitScript
