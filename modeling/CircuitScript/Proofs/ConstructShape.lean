import CircuitScript.Proofs.Assignment
import CircuitScript.Proofs.Condition
import CircuitScript.Proofs.FormulaNames
/-!
What expressions become. An assignment is one of two bodies of steps, and a condition is a tree of
comparisons whose first side is never a constant, whatever the expression was.
-/
namespace CircuitScript

variable {α β : Type} {P : String → Prop} {avoid : NameSet} {out : String}

/-- Every signal that the operand reads has the property. -/
def Operand.Named (P : String → Prop) : Operand → Prop
  | signal name => P name
  | constant _ => True

/-- Every signal of the step has the property. -/
structure Step.Named (P : String → Prop) (step : Step) : Prop where
  left : step.left.Named P
  right : step.right.Named P
  out : P step.out

/-- A side of a comparison: an operand, or some steps. -/
inductive Side.Shaped (P : String → Prop) : Side → Prop
  | value {operand : Operand} (h : operand.Named P) : Shaped P (.value operand)
  | series {scope : Scope} {steps : List Step} (hne : steps ≠ []) (h : ∀ step ∈ steps, step.Named P) :
      Shaped P (.series scope (steps.map .step))

/-- The construct of a condition: comparisons whose first side is a signal, and groups of at least
two members, none of which is a group of the same kind that is not negated. All write one signal. -/
inductive Node.IsTest (P : String → Prop) (out : String) : Node → Prop
  | compare {op : Comparator} {negated : Bool} {left right : Side} {name : String}
      (hl : left.Shaped P) (hs : left.operand = .signal name) (hr : right.Shaped P) :
      IsTest P out (.compare op negated left right out)
  | and {negated : Bool} {body : List Node} (hsize : 2 ≤ body.length)
      (h : ∀ node ∈ body, IsTest P out node)
      (hflat : ∀ node ∈ body, ∀ inner, node ≠ .and false inner out) :
      IsTest P out (.and negated body out)
  | or {negated : Bool} {body : List Node} (hsize : 2 ≤ body.length)
      (h : ∀ node ∈ body, IsTest P out node)
      (hflat : ∀ node ∈ body, ∀ inner, node ≠ .or false inner out) :
      IsTest P out (.or negated body out)

/-- The construct of an assignment: all signals are forwarded, and the target is replaced or
scaled. -/
inductive Node.IsAssignment (P : String → Prop) : Node → Prop
  | replacing {scope inner : Scope} {target : String} {steps : List Step} (ht : P target)
      (hne : steps ≠ []) (h : ∀ step ∈ steps, step.Named P) :
      IsAssignment P (.parallel scope (.step .passthrough :: replacing target steps inner))
  | scaling {scope inner : Scope} {target : String} {k : Int32} (ht : P target) :
      IsAssignment P (.parallel scope (.step .passthrough :: scaling target k inner))

/-- What the aliases in force stand for has the property. -/
def Scope.Named (P : String → Prop) (scope : Scope) : Prop :=
  ∀ name target, scope.aliases.get? name = some target → P target

theorem Scope.Named.resolve {scope : Scope} (h : scope.Named P) {name : String} (hn : P name) :
    P (scope.resolve name) := by
  rw [Scope.resolve]
  cases hg : scope.aliases.get? name with
  | none => exact hn
  | some target => exact h name target hg

namespace Scratch

variable {I : Scope → Prop} {Q : α → Prop}

theorem keeps_lift {result : Except Error α} (h : ∀ a, result = .ok a → Q a) :
    Keeps I Q (liftM result : Scratch α) := by
  refine .of_ok fun {scope after a} hi ha => ?_
  obtain ⟨⟩ := outcome_eq_ok_iff.mp ha
  exact ⟨h a rfl, hi⟩

/-- What is handed out is a scratch signal, and the aliases are as they were. -/
theorem keeps_fresh : Keeps (Scope.Named P) (· ∈ scratchSignals) (fresh avoid) := by
  refine .of_ok fun {scope after name} hi ha => ?_
  have hrun : (fresh avoid).runIn scope = (.ok name, after) := outcome_eq_ok_iff.mp ha
  simp only [fresh, runIn_bind, runIn_get, Scope.allocate] at hrun
  cases hs : scope.nextScratch? avoid with
  | none =>
    rw [hs] at hrun
    cases hrun
  | some found =>
    rw [hs] at hrun
    cases hrun
    exact ⟨List.mem_of_find?_eq_some hs, hi⟩

end Scratch

namespace Expr

open Scratch (keeps_fresh keeps_lift)

variable {expr left right : Expr}

theorem named_operand {held : Option String} {operand : Operand} (he : expr.Named P)
    (hh : ∀ temp ∈ held, P temp) (h : expr.operand held = .ok operand) : operand.Named P := by
  unfold Expr.operand at h
  split at h
  · cases h
    exact hh _ rfl
  · cases h
    trivial
  · cases h
    exact he
  · cases h

theorem keeps_holder (hp : ∀ name ∈ scratchSignals, P name) :
    Keeps (Scope.Named P) (fun held => ∀ temp ∈ held, P temp) (expr.holder avoid) := by
  unfold holder
  split
  · refine Leads.bind (Q := fun name => P name) (keeps_fresh.imp hp) fun name hn => .pure ?_
    rintro _ ⟨⟩
    exact hn
  · exact .pure (by simp)

theorem keeps_heldSteps {held : Option String} (hh : ∀ temp ∈ held, P temp)
    (h : ∀ out, P out → Keeps (Scope.Named P)
      (fun steps => steps ≠ [] ∧ ∀ step ∈ steps, step.Named P) (expr.steps avoid out)) :
    Keeps (Scope.Named P) (fun steps => ∀ step ∈ steps, step.Named P)
      (expr.heldSteps avoid held) := by
  cases held with
  | none => exact .pure (by simp)
  | some temp => exact (h temp (hh temp rfl)).imp fun _ hs => hs.2

theorem keeps_leaf (he : expr.Named P) (ho : P out) :
    Keeps (Scope.Named P) (fun steps => steps ≠ [] ∧ ∀ step ∈ steps, step.Named P) (do
      let value ← liftM (expr.operand none)
      return [⟨value, .add, .constant 0, out⟩] : Scratch (List Step)) := by
  refine .bind (keeps_lift fun operand h => named_operand he (by simp) h) fun operand h => .pure ?_
  refine ⟨by simp, fun step hstep => ?_⟩
  rw [List.mem_singleton.mp hstep]
  exact ⟨h, trivial, ho⟩

/-- The steps of arithmetic read and write what the expression names, scratch signals and the
output. -/
theorem keeps_steps (hp : ∀ name ∈ scratchSignals, P name) (he : expr.Named P) (ho : P out) :
    Keeps (Scope.Named P) (fun steps => steps ≠ [] ∧ ∀ step ∈ steps, step.Named P)
      (expr.steps avoid out) := by
  induction expr generalizing out with
  | literal value => exact keeps_leaf he ho
  | name signal => exact keeps_leaf he ho
  | unary op argument => exact keeps_leaf he ho
  | binary op left right negated ihl ihr =>
    cases ha : op.arith? with
    | none =>
      simp only [steps, ha]
      exact .throw
    | some arith =>
      rw [steps_binary ha]
      refine .bind (keeps_holder hp) fun leftHeld hlh => ?_
      refine .bind (keeps_holder hp) fun rightHeld hrh => ?_
      refine .bind (keeps_heldSteps hlh fun out ho => ihl he.1 ho) fun leftSteps hls => ?_
      refine .bind (keeps_heldSteps hrh fun out ho => ihr he.2 ho) fun rightSteps hrs => ?_
      refine .bind (keeps_lift fun first hf => named_operand he.1 hlh hf) fun first hf => ?_
      refine .bind (keeps_lift fun second hs => named_operand he.2 hrh hs) fun second hs => .pure ?_
      refine ⟨by simp, fun step hstep => ?_⟩
      rcases List.mem_append.mp hstep with hstep | hstep
      · rcases List.mem_append.mp hstep with hstep | hstep
        · exact hls step hstep
        · exact hrs step hstep
      · rw [List.mem_singleton.mp hstep]
        exact ⟨hf, hs, ho⟩

/-- A side that is no constant is compared as a signal. -/
theorem keeps_side (hp : ∀ name ∈ scratchSignals, P name) (he : expr.Named P) :
    Keeps (Scope.Named P) (fun side => side.Shaped P ∧
      (expr.isLiteral = false → ∃ name, side.operand = .signal name)) (expr.side avoid) := by
  cases expr with
  | literal value => exact .pure ⟨.value trivial, by simp [isLiteral]⟩
  | name signal => exact .pure ⟨.value he, fun _ => ⟨signal, rfl⟩⟩
  | unary op argument => exact .throw
  | binary op left right negated =>
    by_cases ht : op.tier = .arithmetic
    · simp only [side, ht, if_true]
      refine .bind keeps_fresh fun temp hm => ?_
      refine .bind (keeps_steps hp he (hp temp hm)) fun steps hs => ?_
      exact .bind Leads.get fun scope _ => .pure ⟨.series hs.1 hs.2, fun _ => ⟨_, rfl⟩⟩
    · simp only [side, ht, if_false]
      exact .throw

/-- The construct of a truth value that is no group. -/
def IsSingle (P : String → Prop) (out : String) (node : Node) : Prop :=
  node.IsTest P out ∧ ∀ op negated body, node ≠ group op negated body out

theorem isSingle_compare {op : Comparator} {negated : Bool} {first second : Side} {name : String}
    (hf : first.Shaped P) (hs : first.operand = .signal name) (hg : second.Shaped P) :
    IsSingle P out (.compare op negated first second out) := by
  refine ⟨.compare hf hs hg, fun op negated body h => ?_⟩
  cases op <;> cases h

/-- A constant on the left changes places with what is no constant, so the first side of a comparison
is a signal unless both sides are constants. -/
theorem keeps_comparison (hp : ∀ name ∈ scratchSignals, P name) {op : Comparator} {negated : Bool}
    (hl : left.Named P) (hr : right.Named P)
    (hn : (left.isLiteral && right.isLiteral) = false) :
    Keeps (Scope.Named P) (IsSingle P out) (comparison avoid out op negated left right) := by
  unfold comparison
  cases hs : left.isLiteral && !right.isLiteral with
  | false =>
    -- The sides keep their places, so a constant on the left would face another one.
    have hleft : left.isLiteral = false := by
      cases hlit : left.isLiteral with
      | false => rfl
      | true => simp_all
    refine .bind (keeps_side hp hl) fun first hf => .bind (keeps_side hp hr) fun second hg => ?_
    obtain ⟨name, hname⟩ := hf.2 hleft
    exact .pure (isSingle_compare hf.1 hname hg.1)
  | true =>
    have hright : right.isLiteral = false := by simp_all
    refine .bind (keeps_side hp hr) fun first hf => .bind (keeps_side hp hl) fun second hg => ?_
    obtain ⟨name, hname⟩ := hf.2 hright
    exact .pure (isSingle_compare hf.1 hname hg.1)

/-- Every truth value in the expression has something to compare that is no constant. -/
def Undecided : Expr → Prop
  | literal _ => False
  | binary op left right _ =>
    match op.tier with
    | .logical => left.Undecided ∧ right.Undecided
    | .relational => (left.isLiteral && right.isLiteral) = false
    | .arithmetic => True
  | _ => True

theorem keeps_testNode (hp : ∀ name ∈ scratchSignals, P name) (he : expr.Named P)
    (hu : expr.Undecided) : Keeps (Scope.Named P) (IsSingle P out) (testNode avoid out expr) := by
  have hvalue : expr.isLiteral = false →
      Keeps (Scope.Named P) (IsSingle P out) (comparison avoid out .eq true expr (int 0)) :=
    fun hlit => keeps_comparison hp he trivial (by simp [hlit])
  cases expr with
  | literal value => exact hu.elim
  | name signal => exact hvalue rfl
  | unary op argument => exact hvalue rfl
  | binary op left right negated =>
    by_cases ht : op.tier = .relational
    · simp only [testNode, ht, if_true]
      cases hc : op.comparator? with
      | none => exact .throw
      | some comparator =>
        simp only [Undecided, ht] at hu
        exact keeps_comparison hp he.1 he.2 hu
    · simp only [testNode, ht, if_false]
      exact hvalue rfl

/-- The members of a group belong together, and none of them is a group of the same kind that is not
negated. -/
def AreMembers (P : String → Prop) (out : String) (parent : BinaryOp) (nodes : List Node) : Prop :=
  nodes ≠ [] ∧ ∀ node ∈ nodes, node.IsTest P out ∧
    ∀ inner, parent.tier = .logical → node ≠ group parent false inner out

theorem isTest_group {op : BinaryOp} {negated : Bool} {first second : List Node}
    (ho : op.tier = .logical) (hf : AreMembers P out op first) (hs : AreMembers P out op second) :
    (group op negated (first ++ second) out).IsTest P out := by
  have hsize : 2 ≤ (first ++ second).length := by
    have h1 := List.length_pos_iff.mpr hf.1
    have h2 := List.length_pos_iff.mpr hs.1
    rw [List.length_append]
    omega
  have hall : ∀ node ∈ first ++ second, node.IsTest P out ∧
      ∀ inner, op.tier = .logical → node ≠ group op false inner out := by
    intro node hm
    rcases List.mem_append.mp hm with hm | hm
    · exact hf.2 node hm
    · exact hs.2 node hm
  cases op with
  | and => exact .and hsize (fun node hm => (hall node hm).1) fun node hm inner =>
      (hall node hm).2 inner rfl
  | or => exact .or hsize (fun node hm => (hall node hm).1) fun node hm inner =>
      (hall node hm).2 inner rfl
  | _ => cases ho

theorem group_injective {op other : BinaryOp} {negated : Bool} {body inner : List Node}
    (ho : op.tier = .logical) (hp : other.tier = .logical)
    (h : group op negated body out = group other false inner out) : other = op ∧ negated = false := by
  cases op <;> cases other <;> simp_all [group, BinaryOp.tier]

theorem keeps_member (hp : ∀ name ∈ scratchSignals, P name) (he : expr.Named P)
    (hu : expr.Undecided) (hn : expr.isLogical = false) (parent : BinaryOp) :
    Keeps (Scope.Named P) (AreMembers P out parent) (expr.members avoid out parent) := by
  rw [members_of_not_isLogical hn]
  refine .bind (keeps_testNode hp he hu) fun node hnode => .pure ⟨by simp, fun other ho => ?_⟩
  rw [List.mem_singleton.mp ho]
  exact ⟨hnode.1, fun inner _ => hnode.2 parent false inner⟩

theorem keeps_members (hp : ∀ name ∈ scratchSignals, P name) (he : expr.Named P)
    (hu : expr.Undecided) (parent : BinaryOp) :
    Keeps (Scope.Named P) (AreMembers P out parent) (expr.members avoid out parent) := by
  induction expr generalizing parent with
  | literal value => exact hu.elim
  | name signal => exact keeps_member hp he hu rfl parent
  | unary op argument => exact keeps_member hp he hu rfl parent
  | binary op left right negated ihl ihr =>
    by_cases ht : op.tier = .logical
    · have hboth : left.Undecided ∧ right.Undecided := by simpa only [Undecided, ht] using hu
      simp only [members, ht, if_true]
      refine .bind (ihl he.1 hboth.1 op) fun first hf => ?_
      refine .bind (ihr he.2 hboth.2 op) fun second hs => ?_
      split
      · next hsame =>
        obtain ⟨rfl, rfl⟩ := hsame
        refine .pure ⟨by simp [hf.1], fun node hm => ?_⟩
        rcases List.mem_append.mp hm with hm | hm
        · exact hf.2 node hm
        · exact hs.2 node hm
      · next hsame =>
        refine .pure ⟨by simp, fun node hm => ?_⟩
        rw [List.mem_singleton.mp hm]
        exact ⟨isTest_group ht hf hs, fun inner hp h => hsame (group_injective ht hp h)⟩
    · exact keeps_member hp he hu (by simp [isLogical, ht]) parent

theorem keeps_conditionNode (hp : ∀ name ∈ scratchSignals, P name) (he : expr.Named P)
    (hu : expr.Undecided) :
    Keeps (Scope.Named P) (Node.IsTest P out) (expr.conditionNode avoid out) := by
  cases hn : expr.isLogical with
  | false =>
    rw [conditionNode_of_not_isLogical hn]
    exact (keeps_testNode hp he hu).imp fun _ hnode => hnode.1
  | true =>
    cases expr with
    | binary op left right negated =>
      have ht : op.tier = .logical := by simpa [isLogical] using hn
      have hboth : left.Undecided ∧ right.Undecided := by simpa only [Undecided, ht] using hu
      simp only [conditionNode, ht, if_true]
      refine .bind (keeps_members hp he.1 hboth.1 op) fun first hf => ?_
      refine .bind (keeps_members hp he.2 hboth.2 op) fun second hs => ?_
      exact .pure (isTest_group ht hf hs)
    | _ => cases hn

theorem named_negate (he : expr.Named P) : (negate expr).Named P := by
  cases expr with
  | literal value => trivial
  | name signal => exact ⟨he, trivial⟩
  | unary op argument => exact ⟨he, trivial⟩
  | binary op left right negated =>
    simp only [negate]
    split
    · exact ⟨he, trivial⟩
    · exact he

theorem named_shortCircuit {op : BinaryOp} {value : Literal} {negated : Bool} (he : expr.Named P) :
    (shortCircuit op value expr negated).Named P := by
  unfold shortCircuit negateIf
  split
  · split
    · exact named_negate he
    · exact he
  · trivial

theorem named_rebuild {op : BinaryOp} {negated : Bool} {tier : Tier} (hl : left.Named P)
    (hr : right.Named P) : (rebuild op left right negated tier).Named P := by
  unfold rebuild
  split
  · split
    · trivial
    · exact ⟨hl, hr⟩
  · split
    · exact named_shortCircuit hr
    · exact ⟨hl, hr⟩
  · split
    · exact named_shortCircuit hl
    · exact ⟨hl, hr⟩
  · exact ⟨hl, hr⟩

/-- Simplification brings in no names but what aliases stand for. -/
theorem named_simplify {aliases : NameMap} {tier : Tier} (he : expr.Named P)
    (ha : ∀ name target, aliases.get? name = some target → P target) :
    (expr.simplify aliases tier).Named P := by
  induction expr generalizing tier with
  | literal value => trivial
  | name signal =>
    show P ((aliases.get? signal).getD signal)
    cases hg : aliases.get? signal with
    | none => exact he
    | some target => exact ha signal target hg
  | unary op argument ih =>
    cases op with
    | not => exact named_negate (ih he)
    | neg =>
      simp only [simplify]
      split
      · trivial
      · exact ⟨trivial, ih he⟩
  | binary op left right negated ihl ihr => exact named_rebuild (ihl he.1) (ihr he.2)

theorem undecided_negate (hu : expr.Undecided) : (negate expr).Undecided := by
  cases expr with
  | literal value => exact hu.elim
  | name signal => rfl
  | unary op argument => rfl
  | binary op left right negated =>
    simp only [negate]
    split
    · rfl
    · exact hu

theorem undecided_shortCircuit {op : BinaryOp} {value : Literal} {negated : Bool}
    (hu : expr.Undecided) :
    (shortCircuit op value expr negated).isLiteral = true ∨
      (shortCircuit op value expr negated).Undecided := by
  unfold shortCircuit negateIf
  split
  · split
    · exact .inr (undecided_negate hu)
    · exact .inr hu
  · exact .inl rfl

theorem undecided_rebuild_logic {op : BinaryOp} {negated : Bool} (ho : op.tier = .logical)
    (hl : left.isLiteral = true ∨ left.Undecided) (hr : right.isLiteral = true ∨ right.Undecided) :
    (rebuild op left right negated .logical).isLiteral = true ∨
      (rebuild op left right negated .logical).Undecided := by
  have hopen : ∀ {expr : Expr}, expr.isLiteral = true ∨ expr.Undecided → expr.literal? = none →
      expr.Undecided := by
    intro expr h hn
    refine h.resolve_left fun hlit => ?_
    rw [isLiteral_of_literal?_eq_none hn] at hlit
    cases hlit
  unfold rebuild
  split
  -- Of two constants one is made; one constant decides or drops out.
  · next a b _ _ =>
    obtain ⟨value, hv⟩ := fold?_logic ho a b
    rw [hv]
    exact .inl rfl
  · next hn =>
    rw [if_pos ho]
    exact undecided_shortCircuit (hopen hr hn)
  · next hn _ =>
    rw [if_pos ho]
    exact undecided_shortCircuit (hopen hl hn)
  · next hln hrn =>
    right
    simp only [Undecided, ho]
    exact ⟨hopen hl hln, hopen hr hrn⟩

theorem undecided_binary {op : BinaryOp} {negated : Bool} (ho : op.tier ≠ .logical)
    (hn : (left.isLiteral && right.isLiteral) = false) :
    (binary op left right negated).Undecided := by
  cases ht : op.tier with
  | logical => exact absurd ht ho
  | relational => simpa only [Undecided, ht] using hn
  | arithmetic => simp only [Undecided, ht]

theorem undecided_rebuild_value {op : BinaryOp} {negated : Bool} (ho : op.tier ≠ .logical)
    (hf : ∀ a b, ∃ value, fold? op a b .logical = some value) :
    (rebuild op left right negated .logical).isLiteral = true ∨
      (rebuild op left right negated .logical).Undecided := by
  unfold rebuild
  split
  · next a b _ _ =>
    obtain ⟨value, hv⟩ := hf a b
    rw [hv]
    exact .inl rfl
  · next hr =>
    rw [if_neg ho]
    exact .inr (undecided_binary ho (by simp [isLiteral_of_literal?_eq_none hr]))
  · next hl _ =>
    rw [if_neg ho]
    exact .inr (undecided_binary ho (by simp [isLiteral_of_literal?_eq_none hl]))
  · next hl _ => exact .inr (undecided_binary ho (by simp [isLiteral_of_literal?_eq_none hl]))

theorem fold?_canonicalOp {op : BinaryOp} (ho : (canonicalOp op).1.tier ≠ .logical) (a b : Literal) :
    ∃ value, fold? (canonicalOp op).1 a b .logical = some value := by
  cases op <;>
    simp_all [canonicalOp, fold?, BinaryOp.arith?, BinaryOp.tier, BinaryOp.comparator?, Tier.rank]

/-- Whatever a condition was, after simplification it is a constant, or nothing in it compares two
constants. -/
theorem undecided_simplify {aliases : NameMap} (expr : Expr) :
    (expr.simplify aliases .logical).isLiteral = true ∨
      (expr.simplify aliases .logical).Undecided := by
  induction expr with
  | literal value => exact .inl rfl
  | name signal => exact .inr trivial
  | unary op argument ih =>
    cases op with
    | not =>
      rcases ih with ih | ih
      · left
        obtain ⟨value, hv⟩ : ∃ value, argument.simplify aliases .logical = literal value := by
          cases hs : argument.simplify aliases .logical with
          | literal value => exact ⟨value, rfl⟩
          | _ => simp [hs, isLiteral] at ih
        simp only [simplify, hv]
        rfl
      · exact .inr (undecided_negate ih)
    | neg =>
      simp only [simplify]
      split
      · exact .inl rfl
      · exact .inr trivial
  | binary op left right negated ihl ihr =>
    simp only [simplify]
    by_cases ho : (canonicalOp op).1.tier = .logical
    · have ht : operandTier (canonicalOp op).1 = .logical := by rw [operandTier, ho]
      rw [ht]
      exact undecided_rebuild_logic ho ihl ihr
    · exact undecided_rebuild_value ho (fold?_canonicalOp ho)

variable {scope after : Scope} {test node : Node} {target : String}

/-- A condition that is accepted becomes a tree of comparisons, each with a signal first. -/
theorem isTest_of_condition (hp : ∀ name ∈ scratchSignals, P name) (he : expr.Named P)
    (hs : scope.Named P) (h : expr.condition.runIn scope = (.ok (test, out), after)) :
    test.IsTest P out ∧ P out ∧ after.Named P := by
  have hnamed : (expr.simplify scope.aliases .logical).Named P := named_simplify he hs
  have hopen := @undecided_simplify scope.aliases expr
  cases hl : (expr.simplify scope.aliases .logical).literal? with
  | some value =>
    rw [condition_of_literal? hl] at h
    cases h
  | none =>
    have hu := hopen.resolve_left (by simp [isLiteral_of_literal?_eq_none hl])
    rw [condition_of_literal?_eq_none hl] at h
    generalize expr.simplify scope.aliases .logical = simplified at h hnamed hu
    have hkeeps : Keeps (Scope.Named P) (fun result => result.1.IsTest P result.2 ∧ P result.2) (do
        let out ← Scratch.fresh simplified.names
        return (← conditionNode simplified.names out simplified, out)) := by
      refine .bind keeps_fresh fun out ho => ?_
      exact .bind (keeps_conditionNode hp hnamed hu) fun node hnode => .pure ⟨hnode, hp out ho⟩
    obtain ⟨⟨htest, hout⟩, hafter⟩ := hkeeps.ok hs (outcome_eq_ok_iff.mpr h)
    exact ⟨htest, hout, hafter⟩

/-- An assignment that is accepted replaces or scales its target. -/
theorem isAssignment_of_assignment (hp : ∀ name ∈ scratchSignals, P name) (he : expr.Named P)
    (hs : scope.Named P) (ht : P target) (h : assignment target expr scope = .ok node) :
    node.IsAssignment P := by
  have hnamed : (expr.simplify scope.aliases .arithmetic).Named P := named_simplify he hs
  rw [assignment] at h
  split at h
  · next steps inner hrun =>
    cases h
    obtain ⟨⟨hne, hsteps⟩, -⟩ := (keeps_steps hp hnamed ht).ok hs (outcome_eq_ok_iff.mpr hrun)
    rcases assignmentBody_cases target steps inner with ⟨step, k, -, -, hbody⟩ | hbody
    · rw [hbody]
      exact .scaling ht
    · rw [hbody]
      exact .replacing ht hne hsteps
  · cases h

end Expr

end CircuitScript
