import CircuitScript.Proofs.Simplification
/-!
The normal form of expressions. After one pass of simplification nothing is left to rename, to fold,
to cut short or to push down, so that a second pass finds the expression as it should be. A part that
takes the place of its parent was simplified for a context that allows at least as much, which is why
it needs no further pass where it ends up.
-/
namespace CircuitScript.Expr

variable {P : String → Prop} {aliases : NameMap} {tier lower : Tier} {op : BinaryOp}
  {left right expr part : Expr} {negated : Bool}

/-- An expression stands in another one, or is all of it. -/
inductive PartOf (part : Expr) : Expr → Prop
  | whole : PartOf part part
  | argument {op : UnaryOp} {argument : Expr} (h : PartOf part argument) :
      PartOf part (unary op argument)
  | left {op : BinaryOp} {left right : Expr} {negated : Bool} (h : PartOf part left) :
      PartOf part (binary op left right negated)
  | right {op : BinaryOp} {left right : Expr} {negated : Bool} (h : PartOf part right) :
      PartOf part (binary op left right negated)

/-- An expression stands in another one with nothing but logical nodes above it. -/
inductive UnderLogic (part : Expr) : Expr → Prop
  | whole : UnderLogic part part
  | left {op : BinaryOp} {left right : Expr} {negated : Bool} (ho : op.tier = .logical)
      (h : UnderLogic part left) : UnderLogic part (binary op left right negated)
  | right {op : BinaryOp} {left right : Expr} {negated : Bool} (ho : op.tier = .logical)
      (h : UnderLogic part right) : UnderLogic part (binary op left right negated)

/-- A node at which nothing is left to do in any context: it is not unary, its relation is one of the
three that have a comparator, arithmetic is not between two constants, and logic has no constant on
one side only. -/
def Tidy : Expr → Prop
  | literal _ | name _ => True
  | unary _ _ => False
  | binary op left right _ =>
    (op ≠ .ne ∧ op ≠ .le ∧ op ≠ .ge) ∧
    (op.tier = .arithmetic → (left.isLiteral && right.isLiteral) = false) ∧
    (op.tier = .logical → left.isLiteral = right.isLiteral)

/-- A node whose truth cannot be told beforehand: a relation or logic between two constants is none,
nor is logic with a constant on any side. -/
def Open : Expr → Prop
  | binary op left right _ =>
    (op.tier ≠ .arithmetic → (left.isLiteral && right.isLiteral) = false) ∧
    (op.tier = .logical → left.isLiteral = false ∧ right.isLiteral = false)
  | _ => True

/-- In a context of the tier, an operator can neither be folded nor cut short. -/
structure Stuck (tier : Tier) (op : BinaryOp) (left right : Expr) : Prop where
  unfolded : left.isLiteral = true → right.isLiteral = true → tier.rank < op.tier.rank
  uncut : op.tier = .logical → left.isLiteral = right.isLiteral

/-- Expressions that simplification for a context of the tier leaves as they are, up to the names,
which all have a property. -/
inductive Normal (P : String → Prop) : Tier → Expr → Prop
  | literal {tier : Tier} (value : Literal) : Normal P tier (literal value)
  | name {tier : Tier} {signal : String} (h : P signal) : Normal P tier (name signal)
  | binary {tier : Tier} {op : BinaryOp} {left right : Expr} (negated : Bool)
      (hc : canonicalOp op = (op, false)) (hs : Stuck tier op left right)
      (hl : Normal P (operandTier op) left) (hr : Normal P (operandTier op) right) :
      Normal P tier (binary op left right negated)

theorem rank_arithmetic_le (tier : Tier) : Tier.arithmetic.rank ≤ tier.rank := Nat.zero_le _

theorem rank_le_logical (tier : Tier) : tier.rank ≤ Tier.logical.rank := by
  cases tier <;> decide

theorem canonicalOp_canonicalOp (op : BinaryOp) :
    canonicalOp (canonicalOp op).1 = ((canonicalOp op).1, false) := by
  cases op <;> rfl

theorem operandTier_of_logical (h : op.tier = .logical) : operandTier op = .logical := by
  rw [operandTier, h]

/-- What hinders folding is the context alone. -/
theorem fold?_eq_none_iff (hc : canonicalOp op = (op, false)) (a b : Literal) :
    fold? op a b tier = none ↔ tier.rank < op.tier.rank := by
  cases op <;> cases tier <;>
    simp [canonicalOp, fold?, BinaryOp.arith?, BinaryOp.tier, BinaryOp.comparator?, Tier.rank] at hc ⊢

theorem isLiteral_of_literal? {value : Literal} (h : expr.literal? = some value) :
    expr.isLiteral = true := by
  rw [literal?_eq_some h]
  rfl

/-- Away from logic, one operand that is no constant is enough to be stuck. -/
theorem stuck_of_value (ho : op.tier ≠ .logical) (hn : (left.isLiteral && right.isLiteral) = false) :
    Stuck tier op left right where
  unfolded := by
    intro hl hr
    rw [hl, hr] at hn
    cases hn
  uncut := fun h => absurd h ho

/-- Where an operator is stuck, its node stays. -/
theorem rebuild_of_stuck (hc : canonicalOp op = (op, false)) (hs : Stuck tier op left right) :
    rebuild op left right negated tier = binary op left right negated := by
  unfold rebuild
  split
  · next a b ha hb =>
    have hrank := hs.unfolded (isLiteral_of_literal? ha) (isLiteral_of_literal? hb)
    rw [(fold?_eq_none_iff hc a b).mpr hrank]
  · next ha hb =>
    refine if_neg fun ho => ?_
    have huncut := hs.uncut ho
    rw [isLiteral_of_literal? ha, isLiteral_of_literal?_eq_none hb] at huncut
    cases huncut
  · next ha hb =>
    refine if_neg fun ho => ?_
    have huncut := hs.uncut ho
    rw [isLiteral_of_literal?_eq_none ha, isLiteral_of_literal? hb] at huncut
    cases huncut
  · rfl

theorem shortCircuit_cases (op : BinaryOp) (value : Literal) (expr : Expr) (negated : Bool) :
    (∃ result, shortCircuit op value expr negated = literal result) ∨
      shortCircuit op value expr negated = negateIf negated expr := by
  unfold shortCircuit
  split
  · exact .inr rfl
  · exact .inl ⟨_, rfl⟩

/-- What becomes of a node: a constant, one side of a logical operator, or what it was. -/
theorem rebuild_cases (hc : canonicalOp op = (op, false)) :
    (∃ value, rebuild op left right negated tier = literal value) ∨
    (op.tier = .logical ∧ ∃ side, (side = left ∨ side = right) ∧
      rebuild op left right negated tier = negateIf negated side) ∨
    (Stuck tier op left right ∧
      rebuild op left right negated tier = binary op left right negated) := by
  unfold rebuild
  split
  · next a b ha hb =>
    cases hf : fold? op a b tier with
    | some value => exact .inl ⟨_, rfl⟩
    | none =>
      refine .inr (.inr ⟨⟨fun _ _ => (fold?_eq_none_iff hc a b).mp hf, fun _ => ?_⟩, rfl⟩)
      rw [isLiteral_of_literal? ha, isLiteral_of_literal? hb]
  · next value ha hb =>
    by_cases ho : op.tier = .logical
    · rw [if_pos ho]
      rcases shortCircuit_cases op value right negated with h | h
      · exact .inl h
      · exact .inr (.inl ⟨ho, right, .inr rfl, h⟩)
    · rw [if_neg ho]
      refine .inr (.inr ⟨stuck_of_value ho ?_, rfl⟩)
      rw [isLiteral_of_literal?_eq_none hb, Bool.and_false]
  · next value ha hb =>
    by_cases ho : op.tier = .logical
    · rw [if_pos ho]
      rcases shortCircuit_cases op value left negated with h | h
      · exact .inl h
      · exact .inr (.inl ⟨ho, left, .inl rfl, h⟩)
    · rw [if_neg ho]
      refine .inr (.inr ⟨stuck_of_value ho ?_, rfl⟩)
      rw [isLiteral_of_literal?_eq_none ha, Bool.false_and]
  · next ha hb =>
    refine .inr (.inr ⟨⟨fun hl => ?_, fun _ => ?_⟩, rfl⟩)
    · rw [isLiteral_of_literal?_eq_none ha] at hl
      cases hl
    · rw [isLiteral_of_literal?_eq_none ha, isLiteral_of_literal?_eq_none hb]

namespace Normal

/-- A context that allows less has less to do. Only the root of an expression can tell the
difference, since its operands are simplified for the operator's own context. -/
theorem mono (h : Normal P tier expr) (hle : lower.rank ≤ tier.rank) : Normal P lower expr := by
  cases h with
  | literal value => exact .literal value
  | name h => exact .name h
  | binary negated hc hs hl hr =>
    exact .binary negated hc
      ⟨fun hll hrl => Nat.lt_of_le_of_lt hle (hs.unfolded hll hrl), hs.uncut⟩ hl hr

theorem eq_zero (h : Normal P .arithmetic expr) (hn : expr.isLiteral = false) :
    Normal P tier (plain .eq expr (int 0)) :=
  .binary false rfl (stuck_of_value (by decide) (by rw [hn, Bool.false_and])) h (.literal _)

theorem negate (h : Normal P tier expr) : Normal P tier expr.negate := by
  cases h with
  | literal value => exact .literal _
  | name h => exact eq_zero (.name h) rfl
  | binary negated hc hs hl hr =>
    rw [Expr.negate]
    split
    · exact eq_zero (mono (.binary negated hc hs hl hr) (rank_arithmetic_le _)) rfl
    · exact .binary _ hc hs hl hr

theorem negateIf (h : Normal P tier expr) : Normal P tier (negateIf negated expr) := by
  unfold Expr.negateIf
  split
  · exact h.negate
  · exact h

theorem rebuild (hc : canonicalOp op = (op, false)) (hl : Normal P (operandTier op) left)
    (hr : Normal P (operandTier op) right) :
    Normal P tier (rebuild op left right negated tier) := by
  rcases rebuild_cases hc with ⟨value, h⟩ | ⟨ho, side, hside, h⟩ | ⟨hs, h⟩
  · rw [h]
    exact .literal value
  · rw [h]
    rw [operandTier_of_logical ho] at hl hr
    -- Either side was simplified for the widest context, so it fits this one.
    have hwide : Normal P .logical side := by
      rcases hside with rfl | rfl
      · exact hl
      · exact hr
    exact (hwide.mono (rank_le_logical tier)).negateIf
  · rw [h]
    exact .binary negated hc hs hl hr

theorem tidy_of_partOf (h : Normal P tier expr) (hp : PartOf part expr) : part.Tidy := by
  induction hp generalizing tier with
  | whole =>
    cases h with
    | literal value => trivial
    | name h => trivial
    | binary negated hc hs _ _ =>
      refine ⟨?_, fun ho => ?_, hs.uncut⟩
      · refine ⟨?_, ?_, ?_⟩ <;> rintro rfl <;> cases hc
      · rw [Bool.eq_false_iff, ne_eq, Bool.and_eq_true]
        rintro ⟨hll, hrl⟩
        have hrank := hs.unfolded hll hrl
        rw [ho] at hrank
        exact absurd hrank (Nat.not_lt_zero _)
  | argument => cases h
  | left _ ih =>
    cases h with
    | binary _ _ _ hl _ => exact ih hl
  | right _ ih =>
    cases h with
    | binary _ _ _ _ hr => exact ih hr

theorem open_of_underLogic (h : Normal P .logical expr) (hp : UnderLogic part expr) : part.Open := by
  induction hp with
  | whole =>
    cases h with
    | literal value => trivial
    | name h => trivial
    | @binary _ op left right _ _ hs _ _ =>
      have hboth : (left.isLiteral && right.isLiteral) = false := by
        rw [Bool.eq_false_iff, ne_eq, Bool.and_eq_true]
        rintro ⟨hll, hrl⟩
        exact absurd (hs.unfolded hll hrl) (Nat.not_lt.mpr (rank_le_logical op.tier))
      refine ⟨fun _ => hboth, fun ho => ?_⟩
      rw [hs.uncut ho, Bool.and_self] at hboth
      exact ⟨(hs.uncut ho).trans hboth, hboth⟩
  | left ho _ ih =>
    cases h with
    | binary _ _ _ hl _ =>
      rw [operandTier_of_logical ho] at hl
      exact ih hl
  | right ho _ ih =>
    cases h with
    | binary _ _ _ _ hr =>
      rw [operandTier_of_logical ho] at hr
      exact ih hr

/-- A pass changes nothing but names, and no name that stands for itself. -/
theorem simplify_eq (h : Normal P tier expr)
    (hp : ∀ signal, P signal → (aliases.get? signal).getD signal = signal) :
    expr.simplify aliases tier = expr := by
  induction h with
  | literal value => rfl
  | name h => rw [simplify, hp _ h]
  | binary negated hc hs _ _ ihl ihr =>
    simp only [simplify, hc, ihl, ihr, Bool.bne_false]
    exact rebuild_of_stuck hc hs

end Normal

/-- Simplification brings every expression to normal form. The names that are left are what aliases
stand for, or have none. -/
theorem normal_simplify (hp : ∀ signal, P ((aliases.get? signal).getD signal)) (expr : Expr)
    (tier : Tier) : Normal P tier (expr.simplify aliases tier) := by
  induction expr generalizing tier with
  | literal value => exact .literal value
  | name signal => exact .name (hp signal)
  | unary op argument ih =>
    cases op with
    | not => exact (ih tier).negate
    | neg =>
      simp only [simplify]
      split
      · exact .literal _
      · next hn =>
        refine .binary false rfl (stuck_of_value (by decide) ?_) (.literal _)
          ((ih tier).mono (rank_arithmetic_le tier))
        rw [isLiteral_of_literal?_eq_none hn, Bool.and_false]
  | binary op left right negated ihl ihr =>
    exact Normal.rebuild (canonicalOp_canonicalOp op) (ihl _) (ihr _)

/-- The constant that a node comes to when its operands come to the given ones, or to none: two
constants are folded where the context allows it, and one may decide a logical node by itself. -/
def foldNode? (op : BinaryOp) (left right : Option Literal) (negated : Bool) (tier : Tier) :
    Option Literal :=
  match left, right with
  | some a, some b =>
    (fold? op a b tier).map fun value => if negated then .bool !value.truthy else value
  | some value, none | none, some value =>
    if op.tier = .logical ∧ value.truthy = (op == .or) then some (.bool ((op == .or) != negated))
    else none
  | none, none => none

/-- The constant that an expression comes to in a context, from the leaves up. -/
def constant? (tier : Tier) : Expr → Option Literal
  | literal value => some value
  | name _ => none
  | unary .neg argument => (argument.constant? tier).map fun value => .int (-value.toInt32)
  | unary .not argument => (argument.constant? tier).map fun value => .bool !value.truthy
  | binary op left right negated =>
    let (op, flips) := canonicalOp op
    foldNode? op (left.constant? (operandTier op)) (right.constant? (operandTier op))
      (negated != flips) tier

theorem literal?_negate (expr : Expr) :
    (negate expr).literal? = expr.literal?.map fun value => .bool !value.truthy := by
  cases expr with
  | literal value => rfl
  | name signal => rfl
  | unary op argument => rfl
  | binary op left right negated =>
    rw [negate]
    split <;> rfl

theorem literal?_shortCircuit (ho : op.tier = .logical) (value : Literal)
    (hn : expr.literal? = none) :
    (shortCircuit op value expr negated).literal? =
      if op.tier = .logical ∧ value.truthy = (op == .or) then some (.bool ((op == .or) != negated))
      else none := by
  have hkeep : (negateIf negated expr).literal? = none := by
    unfold negateIf
    split
    · rw [literal?_negate, hn]
      rfl
    · exact hn
  unfold shortCircuit
  cases op <;> cases hv : value.truthy <;> simp_all [BinaryOp.tier, literal?]

theorem literal?_rebuild :
    (rebuild op left right negated tier).literal? =
      foldNode? op left.literal? right.literal? negated tier := by
  unfold rebuild
  split
  · next a b ha hb =>
    rw [ha, hb, foldNode?]
    cases fold? op a b tier <;> rfl
  · next value ha hb =>
    rw [ha, hb, foldNode?]
    split
    · next ho => exact literal?_shortCircuit ho value hb
    · next ho => simp [ho, literal?]
  · next value ha hb =>
    rw [ha, hb, foldNode?]
    split
    · next ho => exact literal?_shortCircuit ho value ha
    · next ho => simp [ho, literal?]
  · next ha hb =>
    rw [ha, hb]
    rfl

/-- Simplification leaves a constant where there is one to come to, and nowhere else. -/
theorem literal?_simplify (expr : Expr) (tier : Tier) :
    (expr.simplify aliases tier).literal? = expr.constant? tier := by
  induction expr generalizing tier with
  | literal value => rfl
  | name signal => rfl
  | unary op argument ih =>
    cases op with
    | not => rw [simplify, literal?_negate, ih, constant?]
    | neg =>
      rw [constant?, ← ih]
      simp only [simplify]
      split
      · next value hv =>
        rw [hv]
        rfl
      · next hn =>
        rw [hn]
        rfl
  | binary op left right negated ihl ihr =>
    simp only [simplify, constant?]
    rw [literal?_rebuild, ihl, ihr]

/-- One pass of simplification reaches a normal form. Every part of what it leaves is tidy, and for
the context of a condition whatever stands under logic alone is open. It leaves a constant exactly
where the expression comes to one. If nothing that an alias stands for has another meaning itself, a
second pass changes nothing. -/
theorem simplify_normal_form (expr : Expr) (aliases : NameMap) (tier : Tier) :
    (∀ part, PartOf part (expr.simplify aliases tier) → part.Tidy) ∧
    (∀ part, UnderLogic part (expr.simplify aliases .logical) → part.Open) ∧
    ((expr.simplify aliases tier).literal? = expr.constant? tier ∧
      ∀ value, (expr.simplify aliases tier).literal? = some value ↔
        expr.simplify aliases tier = literal value) ∧
    ((∀ word target other, aliases.get? word = some target → aliases.get? target = some other →
        other = target) →
      (expr.simplify aliases tier).simplify aliases tier = expr.simplify aliases tier ∧
      (expr.simplify aliases tier).constant? tier = expr.constant? tier) := by
  have hnormal : ∀ tier, Normal (fun _ => True) tier (expr.simplify aliases tier) :=
    normal_simplify (fun _ => trivial) expr
  refine ⟨fun part => (hnormal tier).tidy_of_partOf, fun part => (hnormal .logical).open_of_underLogic,
    ⟨literal?_simplify expr tier, fun value => ⟨literal?_eq_some, fun h => by rw [h]; rfl⟩⟩, ?_⟩
  intro hidem
  -- Each name that is left has been looked up once, and looking it up again gives the same.
  have hfixed : Normal (fun signal => (aliases.get? signal).getD signal = signal) tier
      (expr.simplify aliases tier) := by
    refine normal_simplify (fun signal => ?_) expr tier
    cases hs : aliases.get? signal with
    | none => simp [hs]
    | some target =>
      cases ht : aliases.get? target with
      | none => simp [ht]
      | some other => simp [ht, hidem signal target other hs ht]
  have hsame := hfixed.simplify_eq fun _ h => h
  refine ⟨hsame, ?_⟩
  rw [← @literal?_simplify aliases, hsame, literal?_simplify]

end CircuitScript.Expr
