import CircuitScript.Proofs.Evaluation
/-!
Simplification keeps the value of arithmetic and the truth of conditions, and leaves no unary node
and no relation but `<`, `>` and `=`.
-/
namespace CircuitScript.Expr

variable {v : Valuation} {aliases : NameMap} {tier : Tier} {op : BinaryOp} {left right expr : Expr}
  {negated : Bool}

/-- Arithmetic without a minus sign of its own, as it is cut into steps. -/
inductive Term : Expr → Prop
  | literal (value : Literal) : Term (literal value)
  | name (signal : String) : Term (name signal)
  | binary {op : BinaryOp} {left right : Expr} (h : op.tier = .arithmetic) (hl : Term left)
      (hr : Term right) : Term (binary op left right false)

/-- Conditions as they are laid out: values and relations between values, joined by logic. Nothing
here is decided beforehand. -/
inductive Test : Expr → Prop
  | value {expr : Expr} (h : Term expr) (hn : expr.isLiteral = false) : Test expr
  | relation {op : BinaryOp} {left right : Expr} (comparator : Comparator) (negated : Bool)
      (h : op.comparator? = some comparator) (hl : Term left) (hr : Term right)
      (hn : (left.isLiteral && right.isLiteral) = false) : Test (binary op left right negated)
  | logic {op : BinaryOp} {left right : Expr} (negated : Bool) (h : op.tier = .logical)
      (hl : Test left) (hr : Test right) : Test (binary op left right negated)

/-- A condition after simplification: either it is decided, or it is ready to be laid out. -/
def Settled (expr : Expr) : Prop := expr.isLiteral = true ∨ Test expr

theorem literal?_eq_some {value : Literal} (h : expr.literal? = some value) :
    expr = literal value := by
  cases expr <;> simp_all [literal?]

theorem isLiteral_of_literal?_eq_none (h : expr.literal? = none) : expr.isLiteral = false := by
  cases expr <;> simp_all [literal?, isLiteral]

theorem holds_plain_eq_zero (expr : Expr) : (plain .eq expr (int 0)).holds v = !expr.holds v := by
  rw [plain, holds_binary]
  simp [holds, BinaryOp.eval, int, eval, Literal.toInt32, bne]

/-- Negation inverts the truth of every expression. -/
@[simp] theorem holds_negate (expr : Expr) : (negate expr).holds v = !expr.holds v := by
  cases expr with
  | literal value => simp only [negate, holds_literal, Literal.truthy_bool]
  | name signal => exact holds_plain_eq_zero _
  | unary op argument => exact holds_plain_eq_zero _
  | binary op left right negated =>
    simp only [negate]
    split
    · exact holds_plain_eq_zero _
    · cases negated <;> simp [holds_binary]

@[simp] theorem holds_negateIf (negated : Bool) (expr : Expr) :
    (negateIf negated expr).holds v = (expr.holds v != negated) := by
  cases negated <;> simp [negateIf]

/-- Folding gives the value that the operator has. -/
theorem fold?_eval {a b value : Literal} (h : fold? op a b tier = some value) :
    value.toInt32 = op.eval a.toInt32 b.toInt32 := by
  unfold fold? at h
  split at h
  · next arith ha =>
    cases h
    exact (BinaryOp.eval_of_arith? ha _ _).symm
  · split at h
    · cases h
    · split at h
      · cases h
        rfl
      · cases h
        rfl
      · obtain ⟨comparator, hc, rfl⟩ := Option.map_eq_some_iff.mp h
        exact (BinaryOp.eval_of_comparator? hc _ _).symm

/-- A logical operator with a constant on either side has the truth of what it is cut short to. -/
theorem holds_shortCircuit (h : op.tier = .logical) (value : Literal) (other : Expr) :
    (shortCircuit op value other negated).holds v =
      (binary op (literal value) other negated).holds v ∧
    (shortCircuit op value other negated).holds v =
      (binary op other (literal value) negated).holds v := by
  rw [holds_logical h, holds_logical h]
  unfold shortCircuit
  cases op <;> simp [BinaryOp.tier] at h <;> cases hv : value.truthy <;> cases negated <;>
    simp [hv]

/-- Rebuilding a node keeps its truth. -/
theorem holds_rebuild :
    (rebuild op left right negated tier).holds v = (binary op left right negated).holds v := by
  unfold rebuild
  split
  · next a b ha hb =>
    rw [literal?_eq_some ha, literal?_eq_some hb]
    split
    · next value hf =>
      have he := fold?_eval hf
      cases negated <;> simp [holds_binary, eval, ← he, Literal.truthy]
    · rfl
  · next value hl hr =>
    rw [literal?_eq_some hl]
    split
    · next ht => exact (holds_shortCircuit ht value right).1
    · rfl
  · next value hl hr =>
    rw [literal?_eq_some hr]
    split
    · next ht => exact (holds_shortCircuit ht value left).2
    · rfl
  · rfl

/-- Away from logic, rebuilding a node keeps even its value. -/
theorem eval_rebuild (h : op.tier ≠ .logical) :
    (rebuild op left right negated tier).eval v = (binary op left right negated).eval v := by
  unfold rebuild
  split
  · next a b ha hb =>
    rw [literal?_eq_some ha, literal?_eq_some hb]
    split
    · next value hf =>
      have he := fold?_eval hf
      cases negated <;> simp [eval, ← he, Literal.truthy, bne]
    · rfl
  · rw [if_neg h]
  · rw [if_neg h]
  · rfl

/-- The canonical relation and its mark say the same as the relation itself. -/
theorem holds_canonicalOp :
    (binary (canonicalOp op).1 left right (negated != (canonicalOp op).2)).holds v =
      (binary op left right negated).holds v := by
  simp only [holds_binary]
  cases op <;> cases negated <;> simp [canonicalOp, BinaryOp.eval, bne, ← decide_not]

/-- The names of an expression as the aliases have them. -/
def resolved (aliases : NameMap) (expr : Expr) : Expr :=
  expr.rename fun signal => (aliases.get? signal).getD signal

/-- Only relations are brought to canonical form, and only their operands change the tier. -/
theorem simplify_binary_of_ne (h : op.tier ≠ .relational) :
    (binary op left right negated).simplify aliases tier =
      rebuild op (left.simplify aliases op.tier) (right.simplify aliases op.tier) negated tier := by
  cases op <;> simp_all [BinaryOp.tier, simplify, canonicalOp, operandTier]

theorem arith?_of_tier (h : op.tier = .arithmetic) : ∃ arith, op.arith? = some arith := by
  cases op <;> simp_all [BinaryOp.tier, BinaryOp.arith?]

theorem comparator?_canonicalOp (h : op.tier = .relational) :
    ∃ comparator, (canonicalOp op).1.comparator? = some comparator := by
  cases op <;> simp_all [BinaryOp.tier, BinaryOp.comparator?, canonicalOp]

theorem tier_of_comparator? {comparator : Comparator} (h : op.comparator? = some comparator) :
    op.tier = .relational := by
  cases op <;> simp_all [BinaryOp.tier, BinaryOp.comparator?]

theorem term_rebuild (h : op.tier = .arithmetic) (hl : Term left) (hr : Term right) :
    Term (rebuild op left right false tier) := by
  have hn : op.tier ≠ .logical := by simp [h]
  unfold rebuild
  split
  · split
    · exact .literal _
    · exact .binary h hl hr
  · rw [if_neg hn]
    exact .binary h hl hr
  · rw [if_neg hn]
    exact .binary h hl hr
  · exact .binary h hl hr

theorem term_simplify (h : Arithmetic expr) : Term (expr.simplify aliases tier) := by
  induction h generalizing tier with
  | literal value => exact .literal value
  | name signal => exact .name _
  | neg _ ih =>
    simp only [simplify]
    split
    · exact .literal _
    · exact .binary rfl (.literal _) ih
  | binary h _ _ ihl ihr =>
    rw [simplify_binary_of_ne (by simp [h])]
    exact term_rebuild h ihl ihr

/-- Simplification keeps the value of arithmetic, in every context. -/
theorem eval_simplify (h : Arithmetic expr) :
    (expr.simplify aliases tier).eval v = (expr.resolved aliases).eval v := by
  induction h generalizing tier with
  | literal value => rfl
  | name signal => rfl
  | @neg argument _ ih =>
    have hz : ∀ a : Int32, 0 - a = -a := by grind
    simp only [simplify]
    split
    · next value hv =>
      have he := @ih tier
      rw [literal?_eq_some hv] at he
      simp only [resolved, rename, eval, int, Literal.toInt32] at he ⊢
      rw [← he]
    · simp only [plain, eval_binary, BinaryOp.eval, ih]
      exact hz _
  | binary h _ _ ihl ihr =>
    rw [simplify_binary_of_ne (by simp [h]), eval_rebuild (by simp [h]), eval_binary, ihl, ihr]
    rfl

theorem settled_of_term (h : Term expr) : Settled expr := by
  cases hn : expr.isLiteral with
  | true => exact .inl hn
  | false => exact .inr (.value h hn)

theorem test_negate (h : Test expr) : Test (negate expr) := by
  cases h with
  | value h hn =>
    cases h with
    | literal value => cases hn
    | name signal => exact .relation .eq false rfl (.name signal) (.literal _) rfl
    | binary h hl hr =>
      rw [negate, if_pos h]
      exact .relation .eq false rfl (.binary h hl hr) (.literal _) rfl
  | relation comparator negated h hl hr hn =>
    rw [negate, if_neg (by simp [tier_of_comparator? h])]
    exact .relation comparator _ h hl hr hn
  | logic negated h hl hr =>
    rw [negate, if_neg (by simp [h])]
    exact .logic _ h hl hr

theorem settled_negate (h : Settled expr) : Settled (negate expr) := by
  rcases h with h | h
  · cases expr <;> simp_all [isLiteral, negate, Settled]
  · exact .inr (test_negate h)

theorem settled_shortCircuit (h : Test expr) (value : Literal) :
    Settled (shortCircuit op value expr negated) := by
  unfold shortCircuit negateIf
  split
  · split
    · exact .inr (test_negate h)
    · exact .inr h
  · exact .inl rfl

theorem isLiteral_eq_false_of_test (h : Test expr) : expr.isLiteral = false := by
  cases h with
  | value _ hn => exact hn
  | relation => rfl
  | logic => rfl

theorem literal?_of_test (h : Test expr) : expr.literal? = none := by
  have hn := isLiteral_eq_false_of_test h
  cases expr <;> simp_all [isLiteral, literal?]

theorem fold?_relation {comparator : Comparator} (h : op.comparator? = some comparator)
    (a b : Literal) : ∃ value, fold? op a b .logical = some value := by
  cases op <;> simp_all [BinaryOp.comparator?, fold?, BinaryOp.arith?, Tier.rank, BinaryOp.tier]

theorem fold?_logic (h : op.tier = .logical) (a b : Literal) :
    ∃ value, fold? op a b .logical = some value := by
  cases op <;> simp_all [fold?, BinaryOp.arith?, Tier.rank, BinaryOp.tier]

theorem settled_rebuild_relation {comparator : Comparator} (h : op.comparator? = some comparator)
    (hl : Term left) (hr : Term right) : Settled (rebuild op left right negated .logical) := by
  have hn : op.tier ≠ .logical := by simp [tier_of_comparator? h]
  unfold rebuild
  split
  · next a b _ _ =>
    obtain ⟨value, hf⟩ := fold?_relation h a b
    simp only [hf]
    exact .inl rfl
  · next hr' =>
    rw [if_neg hn]
    have := isLiteral_of_literal?_eq_none hr'
    exact .inr (.relation comparator negated h hl hr (by simp [this]))
  · next hl' _ =>
    rw [if_neg hn]
    have := isLiteral_of_literal?_eq_none hl'
    exact .inr (.relation comparator negated h hl hr (by simp [this]))
  · next hl' _ =>
    have := isLiteral_of_literal?_eq_none hl'
    exact .inr (.relation comparator negated h hl hr (by simp [this]))

theorem test_of_settled (h : Settled expr) (hn : expr.literal? = none) : Test expr := by
  rcases h with h | h
  · rw [isLiteral_of_literal?_eq_none hn] at h
    cases h
  · exact h

theorem settled_rebuild_logic (h : op.tier = .logical) (hl : Settled left) (hr : Settled right) :
    Settled (rebuild op left right negated .logical) := by
  unfold rebuild
  split
  · next a b _ _ =>
    obtain ⟨value, hf⟩ := fold?_logic h a b
    simp only [hf]
    exact .inl rfl
  · next hn =>
    rw [if_pos h]
    exact settled_shortCircuit (test_of_settled hr hn) _
  · next hn _ =>
    rw [if_pos h]
    exact settled_shortCircuit (test_of_settled hl hn) _
  · next hnl hnr => exact .inr (.logic negated h (test_of_settled hl hnl) (test_of_settled hr hnr))

/-- A stratified condition is decided by simplification, or comes out ready to be laid out. -/
theorem settled_simplify (h : Stratified expr) : Settled (expr.simplify aliases .logical) := by
  induction h with
  | arithmetic h => exact settled_of_term (term_simplify h)
  | relation negated h hl hr =>
    obtain ⟨comparator, hc⟩ := comparator?_canonicalOp h
    exact settled_rebuild_relation hc (term_simplify hl) (term_simplify hr)
  | logic negated h _ _ ihl ihr =>
    rw [simplify_binary_of_ne (by simp [h]), h]
    exact settled_rebuild_logic h ihl ihr
  | not _ ih => exact settled_negate ih

/-- Simplification keeps the truth of stratified conditions. -/
theorem holds_simplify (h : Stratified expr) :
    (expr.simplify aliases .logical).holds v = (expr.resolved aliases).holds v := by
  induction h with
  | arithmetic h => exact congrArg (· != 0) (eval_simplify h)
  | @relation op left right negated h hl hr =>
    change (rebuild _ _ _ _ _).holds v = _
    rw [holds_rebuild, holds_binary, eval_simplify hl, eval_simplify hr, ← holds_binary]
    exact holds_canonicalOp
  | @logic op left right negated h _ _ ihl ihr =>
    rw [simplify_binary_of_ne (by simp [h]), h, holds_rebuild, holds_logical h, ihl, ihr,
      ← holds_logical h]
    rfl
  | not _ ih =>
    change (negate _).holds v = (unary .not _).holds v
    rw [holds_negate, holds_not, ih]
    rfl

end CircuitScript.Expr
