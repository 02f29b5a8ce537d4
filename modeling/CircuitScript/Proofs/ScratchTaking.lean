import CircuitScript.Proofs.Assignment
import CircuitScript.Proofs.Condition
/-!
Which scratch signals a construct uses. Whatever a condition or an assignment is cut into, the
signals that hold its intermediate values were handed out for it, each of them once.
-/
namespace CircuitScript

variable {α β : Type} {base scope : Scope} {avoid : NameSet} {x out : String}
  {names taken : List String}

mutual

/-- The signals in which the series of a condition keep their values. -/
def Node.temps : Node → List String
  | .compare _ _ left right _ => left.temps ++ right.temps
  | .and _ body _ | .or _ body _ => bodyTemps body
  | _ => []

def bodyTemps : List Node → List String
  | [] => []
  | node :: rest => node.temps ++ bodyTemps rest

/-- The signals that the steps of a side write. -/
def Side.temps : Side → List String
  | .value _ => []
  | .series _ body => (bodySteps body).map Step.out

end

mutual

/-- All scopes that are kept in a construct. -/
def Node.scopes : Node → List Scope
  | .chain scope body | .parallel scope body | .series scope body => scope :: bodyScopes body
  | .conditional _ scope test _ body => scope :: (test.scopes ++ bodyScopes body)
  | .compare _ _ left right _ => left.scopes ++ right.scopes
  | .and _ body _ | .or _ body _ => bodyScopes body
  | .step _ => []

def bodyScopes : List Node → List Scope
  | [] => []
  | node :: rest => node.scopes ++ bodyScopes rest

def Side.scopes : Side → List Scope
  | .value _ => []
  | .series scope body => scope :: bodyScopes body

end

theorem bodyTemps_append (first second : List Node) :
    bodyTemps (first ++ second) = bodyTemps first ++ bodyTemps second := by
  induction first with
  | nil => rfl
  | cons node rest ih => rw [List.cons_append, bodyTemps, bodyTemps, ih, List.append_assoc]

theorem bodyScopes_append (first second : List Node) :
    bodyScopes (first ++ second) = bodyScopes first ++ bodyScopes second := by
  induction first with
  | nil => rfl
  | cons node rest ih => rw [List.cons_append, bodyScopes, bodyScopes, ih, List.append_assoc]

theorem mem_bodyScopes_append {first second : List Node} :
    scope ∈ bodyScopes (first ++ second) ↔ scope ∈ bodyScopes first ∨ scope ∈ bodyScopes second := by
  rw [bodyScopes_append, List.mem_append]

theorem bodyScopes_singleton (node : Node) : bodyScopes [node] = node.scopes :=
  List.append_nil _

theorem bodyScopes_map_step (steps : List Step) : bodyScopes (steps.map .step) = [] := by
  induction steps with
  | nil => rfl
  | cons step rest ih => exact ih

/-- A group writes the signal of its condition and no other, so its scratch signals are those of its
members. -/
theorem temps_group (op : BinaryOp) (negated : Bool) (body : List Node) :
    (Expr.group op negated body out).temps = bodyTemps body := by
  cases op <;> rfl

theorem scopes_group (op : BinaryOp) (negated : Bool) (body : List Node) :
    (Expr.group op negated body out).scopes = bodyScopes body := by
  cases op <;> rfl

namespace Scope

/-- No alias stands for a scratch signal that is in use. -/
def Clean (scope : Scope) : Prop :=
  ∀ name, scope.aliases.hasValue name = true → scope.reserved.contains name = false

/-- Scratch signals that a scope hands out one after the other: all different, and none of them in
use, known as an alias or as what one stands for, or to be avoided. -/
structure HandsOut (scope : Scope) (avoid : NameSet) (names : List String) : Prop where
  distinct : names.Nodup
  scratch : ∀ name ∈ names, name ∈ scratchSignals
  unused : ∀ name ∈ names, scope.reserved.contains name = false
  noKey : ∀ name ∈ names, scope.aliases.hasKey name = false
  noTarget : ∀ name ∈ names, scope.aliases.hasValue name = false
  allowed : ∀ name ∈ names, avoid.contains name = false

theorem handsOut_nil : scope.HandsOut avoid [] := by
  constructor <;> simp

/-- It does not matter in which order signals are handed out. -/
theorem HandsOut.perm {names' : List String} (h : scope.HandsOut avoid names)
    (hp : names.Perm names') : scope.HandsOut avoid names' where
  distinct := hp.nodup_iff.mp h.distinct
  scratch := fun name hm => h.scratch name (hp.mem_iff.mpr hm)
  unused := fun name hm => h.unused name (hp.mem_iff.mpr hm)
  noKey := fun name hm => h.noKey name (hp.mem_iff.mpr hm)
  noTarget := fun name hm => h.noTarget name (hp.mem_iff.mpr hm)
  allowed := fun name hm => h.allowed name (hp.mem_iff.mpr hm)

theorem reserved_reserve :
    (scope.reserve names).reserved.contains x = (names.contains x || scope.reserved.contains x) := by
  induction names generalizing scope with
  | nil => rfl
  | cons name rest ih =>
    have hone : (scope.reserve [name]).reserved.contains x =
        (x == name || scope.reserved.contains x) := NameSet.contains_insert _ _ _
    have hsplit : scope.reserve (name :: rest) = (scope.reserve [name]).reserve rest :=
      reserve_append [name] rest
    rw [hsplit, ih, hone, List.contains_cons]
    cases rest.contains x <;> simp

/-- Taken is what is handed out, and what was taken before. -/
theorem isTaken_reserve :
    (scope.reserve names).isTaken x = (names.contains x || scope.isTaken x) := by
  simp only [isTaken, reserved_reserve, Bool.or_assoc]
  rfl

/-- The next scratch signal differs from those handed out before. -/
theorem HandsOut.concat (h : scope.HandsOut avoid names)
    (hn : (scope.reserve names).nextScratch? avoid = some x) : scope.HandsOut avoid (names ++ [x]) := by
  have hx := List.find?_some hn
  simp only [isTaken_reserve, Bool.and_eq_true, Bool.not_eq_true', Bool.or_eq_false_iff] at hx
  obtain ⟨⟨hnew, hold⟩, hallowed⟩ := hx
  simp only [isTaken, Bool.or_eq_false_iff] at hold
  obtain ⟨⟨hunused, hkey⟩, htarget⟩ := hold
  have hlast : ∀ {P : String → Prop}, (∀ name ∈ names, P name) → P x →
      ∀ name ∈ names ++ [x], P name := by
    intro P hp hpx name hm
    rcases List.mem_append.mp hm with hm | hm
    · exact hp name hm
    · rw [List.mem_singleton.mp hm]
      exact hpx
  refine ⟨?_, hlast h.scratch (List.mem_of_find?_eq_some hn), hlast h.unused hunused,
    hlast h.noKey hkey, hlast h.noTarget htarget, hlast h.allowed hallowed⟩
  rw [List.nodup_append]
  refine ⟨h.distinct, by simp, ?_⟩
  rintro name hm _ hx rfl
  rw [List.mem_singleton.mp hx] at hm
  rw [List.contains_iff_mem.mpr hm] at hnew
  cases hnew

/-- A scratch signal that is handed out is no alias, so none gets into use behind one. -/
theorem Clean.reserve (hc : scope.Clean) (h : scope.HandsOut avoid names) :
    (scope.reserve names).Clean := by
  intro name hv
  rw [reserved_reserve, hc name hv, Bool.or_false]
  cases hm : names.contains name with
  | false => rfl
  | true =>
    rw [← h.noTarget name (List.contains_iff_mem.mp hm)]
    exact hv.symm

/-- A scope that came about by handing out scratch signals. -/
def Within (base : Scope) (avoid : NameSet) (scope : Scope) : Prop :=
  ∃ names, scope = base.reserve names ∧ base.HandsOut avoid names

theorem Within.clean (h : base.Within avoid scope) (hc : base.Clean) : scope.Clean := by
  obtain ⟨names, rfl, hn⟩ := h
  exact hc.reserve hn

end Scope

namespace Scratch

variable {post : List String → α → Prop} {post' : List String → β → Prop} {action : Scratch α}
  {next : α → Scratch β}

/-- Where some scratch signals of `base` have been handed out and the action succeeds, it has taken
further ones and gives a result that `post` relates to them. -/
structure Takes (base : Scope) (avoid : NameSet) (post : List String → α → Prop)
    (action : Scratch α) : Prop where
  run : ∀ {taken : List String} {a : α} {after : Scope}, base.HandsOut avoid taken →
    action.runIn (base.reserve taken) = (.ok a, after) →
      ∃ names, after = base.reserve (taken ++ names) ∧ base.HandsOut avoid (taken ++ names) ∧
        post names a

namespace Takes

theorem pure {a : α} (h : post [] a) : Takes base avoid post (Pure.pure a) := by
  constructor
  rintro taken _ _ ht ⟨⟩
  exact ⟨[], by rw [List.append_nil], by rwa [List.append_nil], h⟩

/-- Two actions in a row take different signals: the second looks for free ones in the scope that
the first leaves. -/
theorem bind (h : Takes base avoid post action)
    (h' : ∀ first a, post first a →
      Takes base avoid (fun second b => post' (first ++ second) b) (next a)) :
    Takes base avoid post' (action >>= next) := by
  constructor
  intro taken b after ht hb
  rw [runIn_bind] at hb
  split at hb
  · next a middle ha =>
    obtain ⟨first, rfl, hfirst, hp⟩ := h.run ht ha
    obtain ⟨second, rfl, hsecond, hp'⟩ := (h' first a hp).run hfirst hb
    rw [List.append_assoc] at hsecond
    exact ⟨first ++ second, by rw [List.append_assoc], hsecond, hp'⟩
  · cases hb

theorem imp {weaker : List String → α → Prop} (h : Takes base avoid post action)
    (hi : ∀ names a, post names a → weaker names a) : Takes base avoid weaker action := by
  constructor
  intro taken a after ht ha
  obtain ⟨names, hafter, hn, hp⟩ := h.run ht ha
  exact ⟨names, hafter, hn, hi names a hp⟩

theorem throw {error : Error} : Takes base avoid post (MonadExcept.throw error) := by
  constructor
  rintro taken a after ht ⟨⟩

theorem lift {outcome : Except Error α} :
    Takes base avoid (fun names a => names = [] ∧ outcome = .ok a) (liftM outcome : Scratch α) := by
  constructor
  intro taken a after ht ha
  rw [runIn_lift] at ha
  cases ha
  exact ⟨[], by rw [List.append_nil], by rwa [List.append_nil], rfl, rfl⟩

theorem get :
    Takes base avoid (fun names found => names = [] ∧ base.Within avoid found)
      (MonadState.get : Scratch Scope) := by
  constructor
  rintro taken _ _ ht ⟨⟩
  exact ⟨[], by rw [List.append_nil], by rwa [List.append_nil], rfl, taken, rfl, ht⟩

/-- What is handed out was free in every scope before. -/
theorem fresh : Takes base avoid (fun names name => names = [name]) (Scratch.fresh avoid) := by
  constructor
  intro taken name after ht h
  simp only [Scratch.fresh, runIn_bind, runIn_get, Scope.allocate] at h
  cases hs : (base.reserve taken).nextScratch? avoid with
  | none =>
    rw [hs] at h
    cases h
  | some found =>
    rw [hs] at h
    cases h
    exact ⟨[name], (Scope.reserve_append taken [name]).symm, ht.concat hs, rfl⟩

/-- What an action takes that runs in the scope itself. -/
theorem outcome {a : α} {after : Scope} (h : Takes base avoid post action)
    (hr : action.runIn base = (.ok a, after)) :
    ∃ names, after = base.reserve names ∧ base.HandsOut avoid names ∧ post names a := by
  obtain ⟨names, hafter, hn, hp⟩ := h.run Scope.handsOut_nil hr
  exact ⟨names, hafter, hn, hp⟩

end Takes

end Scratch

namespace Expr

open Scratch (Takes)

variable {expr left right : Expr}

theorem takes_holder :
    Takes base avoid (fun names held => names = held.toList) (expr.holder avoid) := by
  unfold holder
  split
  · refine Takes.bind Takes.fresh fun names name hn => .pure ?_
    rw [hn]
    rfl
  · exact .pure rfl

/-- The steps of an operand write its holder last. -/
theorem takes_heldSteps {held : Option String}
    (h : ∀ out, Takes base avoid
      (fun names steps => ∃ inner, steps.map Step.out = inner ++ [out] ∧ inner.Perm names)
      (expr.steps avoid out)) :
    Takes base avoid (fun names steps => (steps.map Step.out).Perm (held.toList ++ names))
      (expr.heldSteps avoid held) := by
  cases held with
  | none => exact .pure .nil
  | some temp =>
    refine (h temp).imp fun names steps => ?_
    rintro ⟨inner, hi, hp⟩
    rw [hi]
    exact (List.perm_append_singleton temp inner).trans (hp.cons temp)

theorem takes_leaf :
    Takes base avoid
      (fun names steps => ∃ inner, steps.map Step.out = inner ++ [out] ∧ inner.Perm names) (do
      let value ← liftM (expr.operand none)
      return [⟨value, .add, .constant 0, out⟩] : Scratch (List Step)) := by
  refine .bind Takes.lift fun names value hv => .pure ⟨[], rfl, ?_⟩
  rw [hv.1]
  exact .nil

/-- The steps of arithmetic write one scratch signal each, but for the last one. -/
theorem takes_steps (expr : Expr) (out : String) :
    Takes base avoid
      (fun names steps => ∃ inner, steps.map Step.out = inner ++ [out] ∧ inner.Perm names)
      (expr.steps avoid out) := by
  induction expr generalizing out with
  | literal value => exact takes_leaf
  | name signal => exact takes_leaf
  | unary op argument => exact takes_leaf
  | binary op left right negated ihl ihr =>
    cases ha : op.arith? with
    | none =>
      simp only [steps, ha]
      exact .throw
    | some arith =>
      rw [steps_binary ha]
      -- Both holders are taken before the steps below them, so the order is another one.
      refine .bind takes_holder fun held leftHeld hlh => ?_
      refine .bind takes_holder fun held' rightHeld hrh => ?_
      refine .bind (takes_heldSteps ihl) fun ltemps leftSteps hls => ?_
      refine .bind (takes_heldSteps ihr) fun rtemps rightSteps hrs => ?_
      refine .bind Takes.lift fun none first hf => .bind Takes.lift fun none' second hs => .pure ?_
      refine ⟨leftSteps.map Step.out ++ rightSteps.map Step.out, by simp, ?_⟩
      rw [hf.1, hs.1, hlh, hrh]
      refine (hls.append hrs).trans ?_
      simp only [List.append_nil, List.append_assoc]
      exact (List.perm_append_comm_assoc _ _ _).append_left _

/-- A condition's part takes the signals in which its series keep their values, and the scopes it
keeps are those in which it took them. -/
def Takings (base : Scope) (avoid : NameSet) (temps : List String) (scopes : List Scope)
    (names : List String) : Prop :=
  names.Perm temps ∧ ∀ scope ∈ scopes, base.Within avoid scope

/-- Takings from the same scope, one after the other, are one. -/
theorem Takings.append {first second temps temps' : List String} {scopes scopes' : List Scope}
    (h : Takings base avoid temps scopes first) (h' : Takings base avoid temps' scopes' second) :
    Takings base avoid (temps ++ temps') (scopes ++ scopes') (first ++ second) := by
  refine ⟨h.1.append h'.1, fun scope hm => ?_⟩
  rcases List.mem_append.mp hm with hm | hm
  · exact h.2 scope hm
  · exact h'.2 scope hm

/-- A side that is no leaf takes one signal for its value and one for each node below. -/
theorem takes_side :
    Takes base avoid (fun names side => Takings base avoid side.temps side.scopes names)
      (expr.side avoid) := by
  cases expr with
  | literal value => exact .pure ⟨.nil, by simp [Side.scopes]⟩
  | name signal => exact .pure ⟨.nil, by simp [Side.scopes]⟩
  | unary op argument => exact .throw
  | binary op left right negated =>
    by_cases ht : op.tier = .arithmetic
    · simp only [side, ht, if_true]
      refine .bind Takes.fresh fun first temp hf => ?_
      refine .bind (takes_steps _ temp) fun names steps => ?_
      rintro ⟨inner, hi, hp⟩
      refine .bind Takes.get fun none scope hs => .pure ?_
      rw [hf, hs.1]
      constructor
      · simp only [Side.temps, bodySteps_map_step, hi, List.append_nil]
        exact ((hp.symm.cons temp).trans (List.perm_append_singleton temp inner).symm)
      · simp only [Side.scopes, bodyScopes_map_step]
        intro other ho
        rw [List.mem_singleton.mp ho]
        exact hs.2
    · simp only [side, ht, if_false]
      exact .throw

theorem takes_comparison {op : Comparator} {negated : Bool} :
    Takes base avoid (fun names node => Takings base avoid node.temps node.scopes names)
      (comparison avoid out op negated left right) := by
  refine .bind takes_side fun first _ hf => .bind takes_side fun second _ hs => .pure ?_
  rw [List.append_nil]
  exact hf.append hs

theorem takes_testNode :
    Takes base avoid (fun names node => Takings base avoid node.temps node.scopes names)
      (testNode avoid out expr) := by
  cases expr with
  | literal value => exact takes_comparison
  | name signal => exact takes_comparison
  | unary op argument => exact takes_comparison
  | binary op left right negated =>
    by_cases ht : op.tier = .relational
    · simp only [testNode, ht, if_true]
      cases op.comparator? with
      | none => exact .throw
      | some comparator => exact takes_comparison
    · simp only [testNode, ht, if_false]
      exact takes_comparison

theorem Takings.append_body {first second : List Node} {names names' : List String}
    (h : Takings base avoid (bodyTemps first) (bodyScopes first) names)
    (h' : Takings base avoid (bodyTemps second) (bodyScopes second) names') :
    Takings base avoid (bodyTemps (first ++ second)) (bodyScopes (first ++ second))
      (names ++ names') := by
  rw [bodyTemps_append, bodyScopes_append]
  exact h.append h'

theorem Takings.singleton {node : Node} (h : Takings base avoid node.temps node.scopes names) :
    Takings base avoid (bodyTemps [node]) (bodyScopes [node]) names := by
  simpa only [bodyTemps, bodyScopes, List.append_nil] using h

theorem Takings.group {op : BinaryOp} {negated : Bool} {body : List Node}
    (h : Takings base avoid (bodyTemps body) (bodyScopes body) names) :
    Takings base avoid (group op negated body out).temps (group op negated body out).scopes
      names := by
  rwa [temps_group, scopes_group]

theorem takes_member (parent : BinaryOp) (hn : expr.isLogical = false) :
    Takes base avoid (fun names nodes => Takings base avoid (bodyTemps nodes) (bodyScopes nodes) names)
      (expr.members avoid out parent) := by
  rw [members_of_not_isLogical hn]
  refine .bind takes_testNode fun names node h => .pure ?_
  rw [List.append_nil]
  exact h.singleton

/-- By induction on the expression, as groups are taken apart by its logical operators. -/
theorem takes_members (expr : Expr) (parent : BinaryOp) :
    Takes base avoid (fun names nodes => Takings base avoid (bodyTemps nodes) (bodyScopes nodes) names)
      (expr.members avoid out parent) := by
  induction expr generalizing parent with
  | literal value => exact takes_member parent rfl
  | name signal => exact takes_member parent rfl
  | unary op argument => exact takes_member parent rfl
  | binary op left right negated ihl ihr =>
    by_cases ht : op.tier = .logical
    · simp only [members, ht, if_true]
      refine .bind (ihl op) fun first leftNodes hf => .bind (ihr op) fun second rightNodes hs => ?_
      have hboth := hf.append_body hs
      split
      · refine .pure ?_
        rwa [List.append_nil]
      · refine .pure ?_
        rw [List.append_nil]
        exact hboth.group.singleton
    · exact takes_member parent (by simp [isLogical, ht])

theorem takes_conditionNode :
    Takes base avoid (fun names node => Takings base avoid node.temps node.scopes names)
      (expr.conditionNode avoid out) := by
  cases hn : expr.isLogical with
  | false =>
    rw [conditionNode_of_not_isLogical hn]
    exact takes_testNode
  | true =>
    cases expr with
    | binary op left right negated =>
      have ht : op.tier = .logical := by simpa [isLogical] using hn
      simp only [conditionNode, ht, if_true]
      refine .bind (takes_members left op) fun first leftNodes hf => ?_
      refine .bind (takes_members right op) fun second rightNodes hs => .pure ?_
      rw [List.append_nil]
      exact (hf.append_body hs).group
    | _ => cases hn

/-- A condition takes the signal of its result and those in which its series keep their values. -/
theorem condition_takes {after : Scope} {test : Node}
    (h : expr.condition.runIn scope = (.ok (test, out), after)) :
    ∃ names, after = scope.reserve names ∧ names.Perm (out :: test.temps) ∧
      scope.HandsOut (expr.simplify scope.aliases .logical).names (out :: test.temps) ∧
      ∀ kept ∈ test.scopes, scope.Within (expr.simplify scope.aliases .logical).names kept := by
  cases hl : (expr.simplify scope.aliases .logical).literal? with
  | some value =>
    rw [condition_of_literal? hl] at h
    cases h
  | none =>
    rw [condition_of_literal?_eq_none hl] at h
    generalize expr.simplify scope.aliases .logical = simplified at h
    have htakes : Takes scope simplified.names
        (fun names result => Takings scope simplified.names (result.2 :: result.1.temps)
          result.1.scopes names) (do
        let out ← Scratch.fresh simplified.names
        return (← conditionNode simplified.names out simplified, out)) := by
      refine .bind Takes.fresh fun first out hf => ?_
      refine .bind takes_conditionNode fun names node hn => .pure ?_
      rw [hf, List.append_nil]
      exact ⟨hn.1.cons out, hn.2⟩
    obtain ⟨names, hafter, hhands, hperm, hscopes⟩ := htakes.outcome h
    exact ⟨names, hafter, hperm, hhands.perm hperm, hscopes⟩

end Expr

/-- What a series writes on its way, which is all but the signal of its last step. -/
def Node.innerOuts : Node → List String
  | .series _ body => ((bodySteps body).map Step.out).dropLast
  | _ => []

theorem scopes_assignmentBody {target : String} {steps : List Step} {inner : Scope}
    (h : scope ∈ bodyScopes (assignmentBody target steps inner)) : scope = inner := by
  rcases assignmentBody_cases target steps inner with ⟨step, k, -, -, hb⟩ | hb
  · rw [hb] at h
    simpa [scaling, bodyScopes, Node.scopes] using h
  · rw [hb] at h
    simpa [replacing, bodyScopes, Node.scopes, bodyScopes_map_step] using h

/-- An assignment takes the signals that its series writes on its way. -/
theorem assignment_takes {target : String} {expr : Expr} {node : Node}
    (h : assignment target expr scope = .ok node) :
    ∃ members, node = .parallel scope members ∧
      scope.HandsOut ((expr.simplify scope.aliases .arithmetic).names.insert target)
        (members.flatMap Node.innerOuts) ∧
      ∀ kept ∈ bodyScopes members,
        scope.Within ((expr.simplify scope.aliases .arithmetic).names.insert target) kept := by
  rw [assignment] at h
  split at h
  · next steps inner hrun =>
    cases h
    obtain ⟨names, rfl, hhands, outs, houts, hperm⟩ := (Expr.takes_steps _ target).outcome hrun
    refine ⟨_, rfl, ?_, fun kept hk => ⟨names, scopes_assignmentBody hk, hhands⟩⟩
    rcases assignmentBody_cases target steps (scope.reserve names) with ⟨step, k, -, -, hb⟩ | hb
    · rw [hb]
      exact Scope.handsOut_nil
    · have hflat : (assignmentBody target steps (scope.reserve names)).flatMap Node.innerOuts =
          outs := by
        simp [hb, replacing, Node.innerOuts, houts]
      rw [hflat]
      exact hhands.perm hperm.symm
  · cases h

end CircuitScript
