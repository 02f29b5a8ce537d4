import CircuitScript.Expr.Reader
import CircuitScript.Proofs.Simplification
/-!
Where simplification keeps the truth of an expression. A logical operator with a constant on one side
gives way to its other side, which is true in the same cases but need not be one or zero. Where only
the truth counts that makes no difference; arithmetic and comparisons read the value itself.
-/
namespace CircuitScript

variable {v : Valuation} {aliases : NameMap} {tier : Tier} {op : BinaryOp}

theorem BinaryOp.eval_eq_truth (h : op.tier ≠ .arithmetic) (a b : Int32) :
    op.eval a b = truth (op.eval a b != 0) := by
  cases op <;> simp [tier] at h <;> simp [eval]

namespace Expr

variable {left right expr : Expr} {negated : Bool}

/-- Whatever the signals are, the value is one or zero. -/
def isTruth : Expr → Bool
  | literal (.bool _) => true
  | unary .not _ => true
  | binary op _ _ negated => negated || op.tier != .arithmetic
  | _ => false

theorem eval_of_isTruth (h : expr.isTruth = true) : expr.eval v = truth (expr.holds v) := by
  cases expr with
  | literal value =>
    cases value with
    | int _ => cases h
    | bool flag => simp [eval]
  | name signal => cases h
  | unary op argument =>
    cases op with
    | neg => cases h
    | not => simp [eval, holds]
  | binary op left right negated =>
    cases negated with
    | true => simp [holds, eval_binary]
    | false =>
      have ho : op.tier ≠ .arithmetic := by simpa [isTruth] using h
      simp only [holds, eval_binary, Bool.false_eq_true, if_false]
      exact BinaryOp.eval_eq_truth ho _ _

/-- Two expressions that are one or zero and true in the same cases have the same value. -/
theorem eval_eq_of_holds {other : Expr} (h : expr.isTruth = true) (h' : other.isTruth = true)
    (hv : expr.holds v = other.holds v) : expr.eval v = other.eval v := by
  rw [eval_of_isTruth h, eval_of_isTruth h', hv]

theorem isTruth_negate (expr : Expr) : (negate expr).isTruth = true := by
  cases expr with
  | binary op left right negated =>
    rw [negate]
    split
    · rfl
    · next ho => simp [isTruth, ho]
  | _ => rfl

/-- The canonical relation and its mark have the value of the relation itself. -/
theorem eval_canonicalOp :
    (binary (canonicalOp op).1 left right (negated != (canonicalOp op).2)).eval v =
      (binary op left right negated).eval v := by
  by_cases ho : op.tier = .arithmetic
  · have hsame : canonicalOp op = (op, false) := by cases op <;> first | rfl | cases ho
    rw [hsame, Bool.bne_false]
  · have hrel : (canonicalOp op).1.tier ≠ .arithmetic := by
      cases op <;> simp_all [canonicalOp, BinaryOp.tier]
    exact eval_eq_of_holds (by simp [isTruth, hrel]) (by simp [isTruth, ho]) holds_canonicalOp

/-- The operands of arithmetic and of relations are simplified as numbers. -/
theorem operandTier_canonicalOp (ho : op.tier ≠ .logical) :
    operandTier (canonicalOp op).1 = .arithmetic := by
  cases op <;> simp_all [BinaryOp.tier, canonicalOp, operandTier]

theorem tier_canonicalOp (ho : op.tier ≠ .logical) : (canonicalOp op).1.tier ≠ .logical := by
  cases op <;> simp_all [BinaryOp.tier, canonicalOp]

theorem holds_neg (argument : Expr) : (unary .neg argument).holds v = argument.holds v := by
  have hz : ∀ a : Int32, (-a != 0) = (a != 0) := by
    intro a
    rw [Bool.eq_iff_iff, bne_iff_ne, bne_iff_ne]
    grind
  exact hz _

/-- What a minus sign becomes has the value of the minus sign. -/
theorem eval_simplify_neg (argument : Expr) :
    ((unary .neg argument).simplify aliases tier).eval v =
      (unary .neg (argument.simplify aliases tier)).eval v := by
  have hz : ∀ a : Int32, 0 - a = -a := by grind
  simp only [simplify]
  split
  · next value hv =>
    rw [literal?_eq_some hv]
    rfl
  · simp only [plain, eval_binary, BinaryOp.eval]
    exact hz _

/-- Every logical node whose value counts is still one or zero after simplification. The value of the
whole counts if `counts` is set, otherwise only its truth does. -/
def TruthsStay (aliases : NameMap) (counts : Bool) : Expr → Prop
  | literal _ | name _ => True
  | unary .neg argument => argument.TruthsStay aliases counts
  | unary .not argument => argument.TruthsStay aliases false
  | binary op left right negated =>
    if op.tier = .logical then
      (counts = true → ((binary op left right negated).simplify aliases .arithmetic).isTruth = true) ∧
        left.TruthsStay aliases false ∧ right.TruthsStay aliases false
    else left.TruthsStay aliases true ∧ right.TruthsStay aliases true

/-- Where its value counts, a logical node that stays one or zero keeps its value if it keeps its
truth. -/
theorem eval_of_logical (ho : op.tier = .logical) (ht : expr.isTruth = true)
    (hv : expr.holds v = (binary op left right negated).holds v) :
    expr.eval v = (binary op left right negated).eval v :=
  eval_eq_of_holds ht (by simp [isTruth, ho]) hv

theorem eval_simplify_value (ho : op.tier ≠ .logical)
    (hl : (left.simplify aliases .arithmetic).eval v = (left.resolved aliases).eval v)
    (hr : (right.simplify aliases .arithmetic).eval v = (right.resolved aliases).eval v) :
    ((binary op left right negated).simplify aliases tier).eval v =
      ((binary op left right negated).resolved aliases).eval v := by
  simp only [simplify, operandTier_canonicalOp ho]
  rw [eval_rebuild (tier_canonicalOp ho), eval_binary, hl, hr, ← eval_binary]
  exact eval_canonicalOp

theorem holds_simplify_logical (ho : op.tier = .logical)
    (hl : (left.simplify aliases .logical).holds v = (left.resolved aliases).holds v)
    (hr : (right.simplify aliases .logical).holds v = (right.resolved aliases).holds v) :
    ((binary op left right negated).simplify aliases tier).holds v =
      ((binary op left right negated).resolved aliases).holds v := by
  rw [simplify_binary_of_ne (by simp [ho]), ho, holds_rebuild, holds_logical ho, hl, hr,
    ← holds_logical ho]
  rfl

/-- Simplification keeps the value of an expression whose value counts, and the truth of any other. -/
theorem meaning_simplify (expr : Expr) :
    (expr.TruthsStay aliases true →
      (expr.simplify aliases .arithmetic).eval v = (expr.resolved aliases).eval v) ∧
    (expr.TruthsStay aliases false → ∀ tier,
      (expr.simplify aliases tier).holds v = (expr.resolved aliases).holds v) := by
  induction expr with
  | literal value => exact ⟨fun _ => rfl, fun _ _ => rfl⟩
  | name signal => exact ⟨fun _ => rfl, fun _ _ => rfl⟩
  | unary op argument ih =>
    cases op with
    | neg =>
      constructor
      · intro h
        rw [eval_simplify_neg, eval, ih.1 h]
        rfl
      · intro h tier
        have hsame : ((unary .neg argument).simplify aliases tier).holds v =
            (unary .neg (argument.simplify aliases tier)).holds v :=
          congrArg (· != 0) (eval_simplify_neg argument)
        rw [hsame, holds_neg, ih.2 h tier]
        exact (holds_neg _).symm
    | not =>
      have htruth : argument.TruthsStay aliases false → ∀ tier,
          ((unary .not argument).simplify aliases tier).holds v =
            ((unary .not argument).resolved aliases).holds v := by
        intro h tier
        rw [simplify, holds_negate, ih.2 h tier]
        exact (holds_not _).symm
      exact ⟨fun h => eval_eq_of_holds (isTruth_negate _) rfl (htruth h _), htruth⟩
  | binary op left right negated ihl ihr =>
    by_cases ho : op.tier = .logical
    · constructor
      · intro h
        simp only [TruthsStay, ho, if_true] at h
        exact eval_of_logical ho (h.1 trivial)
          (holds_simplify_logical ho (ihl.2 h.2.1 _) (ihr.2 h.2.2 _))
      · intro h tier
        simp only [TruthsStay, ho, if_true] at h
        exact holds_simplify_logical ho (ihl.2 h.2.1 _) (ihr.2 h.2.2 _)
    · constructor
      · intro h
        simp only [TruthsStay, ho, if_false] at h
        exact eval_simplify_value ho (ihl.1 h.1) (ihr.1 h.2)
      · intro h tier
        simp only [TruthsStay, ho, if_false] at h
        exact congrArg (· != 0) (eval_simplify_value ho (ihl.1 h.1) (ihr.1 h.2))

/-- Simplification keeps the truth of an expression in every context, as long as no logical node
whose value is read gives way to a number. -/
theorem simplify_keeps_truth (h : expr.TruthsStay aliases false) (tier : Tier) (v : Valuation) :
    (expr.simplify aliases tier).holds v = (expr.resolved aliases).holds v :=
  (meaning_simplify expr).2 h tier

/-- `((a < b) && true) + c > 1`, where arithmetic reads a logical node that gives way to a relation. -/
def readRelation : Expr :=
  plain .gt
    (plain .add (plain .and (plain .lt (name "a") (name "b")) (literal (.bool true))) (name "c"))
    (int 1)

theorem simplify_keeps_truth_readRelation :
    readRelation.TruthsStay (Dict.empty.insert "c" "iron") false ∧
    readRelation.simplify (Dict.empty.insert "c" "iron") .logical =
      plain .gt (plain .add (plain .lt (name "a") (name "b")) (name "iron")) (int 1) ∧
    ∀ v, (readRelation.simplify (Dict.empty.insert "c" "iron") .logical).holds v =
      decide (1 < truth (decide (v "a" < v "b")) + v "iron") := by
  have h : readRelation.TruthsStay (Dict.empty.insert "c" "iron") false :=
    ⟨⟨⟨fun _ => rfl, ⟨trivial, trivial⟩, trivial⟩, trivial⟩, trivial⟩
  have hand : ∀ flag, truth (truth flag != 0 && truth true != 0) = truth flag := by decide
  refine ⟨h, rfl, fun v => (simplify_keeps_truth h .logical v).trans ?_⟩
  calc (readRelation.resolved (Dict.empty.insert "c" "iron")).holds v
    _ = (truth (decide (1 < truth (truth (decide (v "a" < v "b")) != 0 && truth true != 0) +
          v "iron")) != 0) := rfl
    _ = decide (1 < truth (decide (v "a" < v "b")) + v "iron") := by rw [truth_bne_zero, hand]

/-- A comparison that reads a logical node with a constant side. -/
def comparedLogic : String := "(a && 1) = 1"

/-- The truth of an expression that can be written is not always kept: with five on `a` the comparison
holds, but what is left of it compares `a` itself with one. -/
theorem simplify_changes_truth :
    ¬ ∀ raw expr aliases tier v, ofText raw = .ok expr →
      (expr.simplify aliases tier).holds v = (expr.resolved aliases).holds v := by
  intro h
  have hread : (ofText comparedLogic).toOption =
      some (plain .eq (plain .and (name "a") (int 1)) (int 1)) := by decide +kernel
  cases hr : ofText comparedLogic with
  | error error =>
    rw [hr] at hread
    cases hread
  | ok expr =>
    rw [hr] at hread
    cases hread
    have hsame := h comparedLogic _ Dict.empty .logical (fun _ => 5) hr
    exact absurd hsame (by decide)

end Expr

end CircuitScript
