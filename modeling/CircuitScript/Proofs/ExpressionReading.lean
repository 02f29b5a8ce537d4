import CircuitScript.Proofs.ExpressionText
/-!
Expressions that are read back. A written expression is read operand by operand, and each operator
takes what binds tighter on its right; so the text determines the tree. Main statement: reading the
text of an expression gives that expression.
-/
namespace CircuitScript

namespace Formula

variable {α β : Type} {bound level n : Nat} {cs rest after text : List Char} {names : List String}
  {lexeme : Lexeme} {token : Token} {newline : Bool} {rules : Rules} {context : Context}
  {form : Form}

/-- What may follow an operand in a text: nothing, a closing parenthesis, or an operator that binds
no tighter than `bound`. -/
inductive Ends (bound : Nat) : List Char → Prop
  | stop : Ends bound []
  | close (rest : List Char) : Ends bound (')' :: rest)
  | operator {op : BinaryOp} (rest : List Char) (h : op.precedence ≤ bound) :
      Ends bound (' ' :: (op.mark.toList ++ ' ' :: rest))

/-- The same of the token that comes next. -/
inductive Closes (bound : Nat) : Token → Prop
  | stop : Closes bound .stop
  | close : Closes bound (.mark ")")
  | operator {op : BinaryOp} (h : op.precedence ≤ bound) : Closes bound (.mark op.mark)

namespace Ends

theorem endsOperand (h : Ends bound rest) : EndsOperand rest := by
  cases h with
  | stop => rintro c ⟨⟩
  | close =>
    rintro c ⟨⟩
    exact .inr rfl
  | operator =>
    rintro c ⟨⟩
    exact .inl rfl

theorem exists_next? (h : Ends bound rest) :
    ∃ token after, next? rest = some ⟨token, false, after⟩ ∧ Closes bound token := by
  cases h with
  | stop => exact ⟨_, _, next?_nil, .stop⟩
  | close rest => exact ⟨_, _, next?_close, .close⟩
  | operator rest h => exact ⟨_, _, next?_blank.trans (next?_mark _), .operator h⟩

theorem mono {other : Nat} (h : Ends bound rest) (hle : bound ≤ other) : Ends other rest := by
  cases h with
  | stop => exact .stop
  | close rest => exact .close rest
  | operator rest h => exact .operator rest (Nat.le_trans h hle)

end Ends

namespace Reader

theorem bind_of_some {read : Reader α} {next : α → Reader β} {source source' : Source} {a : α}
    (h : read source = some (a, source')) : (read >>= next) source = next a source' := by
  show (read source >>= fun result => next result.1 result.2) = _
  rw [h]
  rfl

theorem accept_bind {next : Unit → Reader β} :
    (accept lexeme >>= next) ⟨cs, names⟩ = next () ⟨lexeme.rest, names⟩ := rfl

theorem peek_of_next? (h : next? cs = some lexeme) :
    peek ⟨cs, names⟩ = some (lexeme, ⟨cs, names⟩) := by
  rw [peek, h]
  rfl

theorem eats_of_eq (h : next? cs = some lexeme) (ht : lexeme.token = token) :
    eats token ⟨cs, names⟩ = some (true, ⟨lexeme.rest, names⟩) := by
  rw [eats, bind_of_some (peek_of_next? h), if_pos (by simp [ht])]
  rfl

theorem eats_of_ne (h : next? cs = some lexeme) (ht : lexeme.token ≠ token) :
    eats token ⟨cs, names⟩ = some (false, ⟨cs, names⟩) := by
  rw [eats, bind_of_some (peek_of_next? h), if_neg (by simp [ht])]
  rfl

end Reader

open Reader

theorem suffixes_of_closes {calls chained : Bool} (h : next? cs = some lexeme)
    (hc : Closes bound lexeme.token) :
    suffixes rules context calls chained form ⟨cs, names⟩ = some (form, ⟨cs, names⟩) := by
  rw [suffixes, bind_of_some (peek_of_next? h)]
  obtain ⟨token, newline, rest⟩ := lexeme
  cases hc with
  | stop => rfl
  | close => rfl
  | @operator op => cases op <;> rfl

theorem postfixed_of_closes {source : Source}
    (hoperand : operand rules context source = some (form, ⟨cs, names⟩))
    (h : next? cs = some lexeme) (hc : Closes bound lexeme.token) :
    postfixed rules context source = some (form, ⟨cs, names⟩) := by
  rw [postfixed, bind_of_some hoperand, bind_of_some (peek_of_next? h)]
  obtain ⟨token, newline, rest⟩ := lexeme
  cases hc with
  | stop => rfl
  | close => rfl
  | @operator op => cases op <;> rfl

/-- The first token of an operand that has no operator. -/
inductive Opens : Token → Prop
  | number (value : Binary64) : Opens (.numeral (.float value))
  | truth (flag : Bool) : Opens (.word (if flag then "true" else "false") false)
  | name {text : String} (h : text ∉ Expr.reservedWords) : Opens (.word text false)
  | group : Opens (.mark "(")

/-- A reserved word opens no operand, unless it is a truth value. -/
theorem Opens.ne_word {text : String} (h : Opens token) (ht : text ∈ Expr.reservedWords)
    (htruth : text ≠ "true" ∧ text ≠ "false") (escaped : Bool) : token ≠ .word text escaped := by
  cases h with
  | number value => rintro ⟨⟩
  | truth flag =>
    cases flag with
    | false =>
      rintro ⟨⟩
      exact htruth.2 rfl
    | true =>
      rintro ⟨⟩
      exact htruth.1 rfl
  | name h =>
    rintro ⟨⟩
    exact h ht
  | group => rintro ⟨⟩

theorem unary_of_opens (h : next? cs = some lexeme) (ho : Opens lexeme.token) :
    unary rules context ⟨cs, names⟩ = postfixed rules context ⟨cs, names⟩ := by
  rw [unary, bind_of_some (peek_of_next? h)]
  obtain ⟨token, newline, rest⟩ := lexeme
  cases ho with
  | number value => rfl
  | truth flag => cases flag <;> rfl
  | @name text hfree =>
    have hwords : ∀ word ∈ ["typeof", "void", "delete"], word ∈ Expr.reservedWords := by decide
    have hsigned : prefixOperator? (.word text false) = none :=
      if_neg fun hmem => hfree (hwords text (List.contains_iff_mem.mp hmem))
    have hawait : text ≠ "await" := by
      rintro rfl
      exact hfree (by decide)
    dsimp only
    rw [hsigned]
    simp [hawait]
  | group => rfl

theorem subject_of_opens (h : next? cs = some lexeme) (ho : Opens lexeme.token) :
    subject rules context ⟨cs, names⟩ = primary rules context ⟨cs, names⟩ := by
  have hword : ∀ text ∈ ["new", "super", "import"],
      eatsWord text ⟨cs, names⟩ = some (false, ⟨cs, names⟩) := by
    have hreserved : ∀ text ∈ ["new", "super", "import"],
        text ∈ Expr.reservedWords ∧ text ≠ "true" ∧ text ≠ "false" := by decide
    intro text htext
    exact eats_of_ne h (ho.ne_word (hreserved text htext).1 (hreserved text htext).2 false)
  rw [subject, bind_of_some (hword "new" (by decide)), if_neg (by decide),
    bind_of_some (hword "super" (by decide)), if_neg (by decide),
    bind_of_some (hword "import" (by decide))]
  rfl

theorem beginsAsyncFunction_of_ends (h : Ends bound rest) :
    beginsAsyncFunction ⟨token, newline, rest⟩ = false := by
  obtain ⟨next, after, hnext, hcloses⟩ := h.exists_next?
  have hno : (next == .word "function" false) = false := by
    cases hcloses with
    | @operator op => cases op <;> rfl
    | _ => rfl
  simp [beginsAsyncFunction, hnext, hno]

theorem primary_number {value : Binary64}
    (h : next? cs = some ⟨.numeral (.float value), newline, rest⟩) :
    primary rules context ⟨cs, names⟩ = some (.number value, ⟨rest, names⟩) := by
  rw [primary, bind_of_some (peek_of_next? h)]
  rfl

theorem primary_truth (flag : Bool)
    (h : next? cs = some ⟨.word (if flag then "true" else "false") false, newline, rest⟩)
    (hends : Ends bound rest) :
    primary rules context ⟨cs, names⟩ = some (.bool flag, ⟨rest, names⟩) := by
  rw [primary, bind_of_some (peek_of_next? h)]
  dsimp only
  rw [wordOperand, accept_bind, beginsAsyncFunction_of_ends hends]
  cases flag <;> rfl

theorem primary_name {text : String} (h : next? cs = some ⟨.word text false, newline, rest⟩)
    (hfree : text ∉ Expr.reservedWords) (hends : Ends bound rest) :
    primary rules .top ⟨cs, names⟩ = some (.name text, ⟨rest, names⟩) := by
  have hne (word : String) (hword : word ∈ Expr.reservedWords) : text ≠ word := by
    rintro rfl
    exact hfree hword
  have hallows : Context.top.allows text = true := by
    have hreserved : text ∉ Context.reservedWords := fun hmem =>
      hfree (List.mem_append_left _ hmem)
    simp [Context.allows, Context.isReserved, Context.top, hreserved, hne "await" (by decide)]
  rw [primary, bind_of_some (peek_of_next? h)]
  dsimp only
  rw [wordOperand, accept_bind, beginsAsyncFunction_of_ends hends]
  simp [hne "true" (by decide), hne "false" (by decide), hne "null" (by decide),
    hne "this" (by decide), hne "function" (by decide), hne "class" (by decide), hallows, require]
  rfl

theorem primary_group (h : next? cs = some ⟨.mark "(", newline, after⟩)
    (hinner : sequence rules context.inside ⟨after, names⟩ = some (form, ⟨')' :: rest, names⟩)) :
    primary rules context ⟨cs, names⟩ = some (.group form, ⟨rest, names⟩) := by
  have hclose : expectsMark ")" ⟨')' :: rest, names⟩ = some ((), ⟨rest, names⟩) := by
    rw [expectsMark, expects, bind_of_some (eats_of_eq next?_close rfl)]
    rfl
  have hrun : (do
      accept ⟨.mark "(", newline, after⟩
      let inner ← sequence rules context.inside
      expectsMark ")"
      return Form.group inner) ⟨cs, names⟩ = some (.group form, ⟨rest, names⟩) := by
    rw [accept_bind, bind_of_some hinner, bind_of_some hclose]
    rfl
  rw [primary, bind_of_some (peek_of_next? h)]
  exact hrun

/-- Nothing that follows belongs to the operand any more. -/
theorem unary_of_primary (h : next? cs = some lexeme) (ho : Opens lexeme.token)
    (hprimary : primary (Formula.rules (n + 1)) context ⟨cs, names⟩ = some (form, ⟨rest, names⟩))
    (hends : Ends bound rest) :
    unary (Formula.rules (n + 1)) context ⟨cs, names⟩ = some (form, ⟨rest, names⟩) := by
  obtain ⟨token, after, hnext, hcloses⟩ := hends.exists_next?
  have hoperand : operand (Formula.rules (n + 1)) context ⟨cs, names⟩ =
      some (form, ⟨rest, names⟩) := by
    rw [operand, bind_of_some ((subject_of_opens h ho).trans hprimary)]
    exact suffixes_of_closes hnext hcloses
  rw [unary_of_opens h ho]
  exact postfixed_of_closes hoperand hnext hcloses

/-- The rank that the grammar gives to the operators of a precedence. -/
def rankOf : Nat → Nat
  | 0 => 0
  | 1 => 2
  | 2 => 3
  | 3 => 7
  | 4 => 8
  | 5 => 10
  | more + 6 => more + 11

theorem rankOf_strictMono : StrictMono rankOf := by
  refine strictMono_nat_of_lt_succ fun precedence => ?_
  match precedence with
  | 0 | 1 | 2 | 3 | 4 | 5 => decide
  | more + 6 => exact Nat.lt_succ_self (more + 11)

theorem rank?_mark (op : BinaryOp) :
    rank? context (.mark op.mark) = some (op.mark, rankOf op.precedence) := by
  cases op <;> rfl

/-- Operators that bind no tighter are left for later. -/
theorem operators_of_ends (h : Ends bound cs) :
    operators rules context (rankOf bound) form ⟨cs, names⟩ = some (form, ⟨cs, names⟩) := by
  obtain ⟨token, after, hnext, hcloses⟩ := h.exists_next?
  rw [operators, bind_of_some (peek_of_next? hnext)]
  cases hcloses with
  | stop => rfl
  | close => rfl
  | @operator op h =>
    dsimp only
    rw [rank?_mark]
    dsimp only
    rw [if_neg (Nat.not_lt.mpr (rankOf_strictMono.monotone h))]
    rfl

/-- A first operand, and the operators of a greater rank after it. -/
def combined (rules : Rules) (rank : Nat) : Reader Form := do
  let first ← firstOperand rules .top rank
  rules.operators .top rank first

/-- A tighter operator takes its right operand, and reading goes on behind that. -/
theorem operators_of_mark {op : BinaryOp} {left right : Form}
    (h : next? cs = some ⟨.mark op.mark, newline, after⟩) (hb : bound < op.precedence)
    (hright : combined (Formula.rules (n + 1)) (rankOf op.precedence) ⟨after, names⟩ =
      some (right, ⟨rest, names⟩))
    (hjoin : Form.join? op.mark left right = some (.binary op.mark left right)) :
    operators (Formula.rules (n + 1)) .top (rankOf bound) left ⟨cs, names⟩ =
      operators (Formula.rules n) .top (rankOf bound) (.binary op.mark left right)
        ⟨rest, names⟩ := by
  have hpower : (op.mark == "**") = false := by cases op <;> rfl
  have hlift : (StateT.lift (Form.join? op.mark left right) : Reader Form) ⟨rest, names⟩ =
      some (.binary op.mark left right, ⟨rest, names⟩) := by
    rw [hjoin]
    rfl
  rw [combined] at hright
  rw [operators, bind_of_some (peek_of_next? h)]
  dsimp only
  rw [rank?_mark]
  dsimp only
  rw [if_pos (rankOf_strictMono hb), accept_bind, hpower, if_neg (by decide), ← bind_assoc,
    bind_of_some hright, bind_of_some hlift]
  rfl

/-- The first token of an expression. If it is a word, the operand ends with it. -/
structure Lexeme.Starts (lexeme : Lexeme) : Prop where
  token : Opens lexeme.token ∨ ∃ op : UnaryOp, lexeme.token = .mark op.symbol
  word : ∀ text, lexeme.token = .word text false → ∃ bound, Ends bound lexeme.rest

theorem Lexeme.Starts.opens (h : lexeme.Starts) (hmark : ∀ text, lexeme.token ≠ .mark text) :
    Opens lexeme.token := by
  rcases h.token with ho | ⟨op, hop⟩
  · exact ho
  · exact absurd hop (hmark op.symbol)

theorem firstOperand_of_starts {rank : Nat} (h : next? cs = some lexeme) (hs : lexeme.Starts) :
    firstOperand rules context rank ⟨cs, names⟩ = unary rules context ⟨cs, names⟩ := by
  rw [firstOperand, bind_of_some (peek_of_next? h)]
  cases ht : lexeme.token with
  | privateWord text =>
    have ho := hs.opens (by simp [ht])
    rw [ht] at ho
    cases ho
  | _ => rfl

theorem assignment_of_starts (h : next? cs = some lexeme) (hs : lexeme.Starts) :
    assignment rules context ⟨cs, names⟩ = combination rules context ⟨cs, names⟩ := by
  rw [assignment, bind_of_some (peek_of_next? h)]
  cases ht : lexeme.token with
  | word text escaped =>
    have hyield : text ≠ "yield" := by
      rintro rfl
      exact (hs.opens (by simp [ht])).ne_word (by decide) (by decide) escaped ht
    simp [hyield]
  | _ => rfl

/-- Whatever ends the text, it begins as an expression does. -/
def Begins (text : List Char) : Prop :=
  ∀ bound tail, Ends bound tail → ∃ lexeme, next? (text ++ tail) = some lexeme ∧ lexeme.Starts

theorem Begins.ne_nil (h : Begins text) : text ≠ [] := by
  rintro rfl
  obtain ⟨lexeme, hnext, hstarts⟩ := h 0 [] .stop
  rw [List.append_nil, next?_nil] at hnext
  cases hnext
  cases hstarts.opens (by simp)

theorem Begins.append_operator {more : List Char} (h : Begins text) (op : BinaryOp) :
    Begins (text ++ ' ' :: (op.mark.toList ++ ' ' :: more)) := by
  intro bound tail _
  have hfirst := h op.precedence (' ' :: (op.mark.toList ++ ' ' :: (more ++ tail)))
    (.operator _ (Nat.le_refl _))
  simpa using hfirst

/-- The text is read as an operand, which a prefix operator may stand before. It need not begin the
rest of the source, as long as the next token does. -/
structure ReadsOperand (text : List Char) (form : Form) : Prop where
  begins : Begins text
  reads : ∀ {bound n : Nat} {cs tail : List Char} {names : List String},
    next? cs = next? (text ++ tail) → Ends bound tail → (text ++ tail).length ≤ n →
      unary (Formula.rules n) .top ⟨cs, names⟩ = some (form, ⟨tail, names⟩)

/-- The text is read as operands whose operators bind at least as tight as `level`. Where that ends
is up to the operators behind the text, which are left to go on with its form. -/
structure ReadsWithin (level : Nat) (text : List Char) (form : Form) : Prop where
  begins : Begins text
  reads : ∀ {bound n : Nat} {cs tail rest : List Char} {names : List String} {final : Form},
    bound < level → next? cs = next? (text ++ tail) → Ends level tail →
    (∀ m, tail.length ≤ m → operators (Formula.rules m) .top (rankOf bound) form ⟨tail, names⟩ =
      some (final, ⟨rest, names⟩)) →
    (text ++ tail).length ≤ n →
      combined (Formula.rules n) (rankOf bound) ⟨cs, names⟩ = some (final, ⟨rest, names⟩)

/-- An operand of one token. -/
theorem readsOperand_of_token (ho : Opens token)
    (hnext : ∀ tail, EndsOperand tail → next? (text ++ tail) = some ⟨token, false, tail⟩)
    (hprimary : ∀ {bound n : Nat} {cs tail : List Char} {names : List String},
      next? cs = some ⟨token, false, tail⟩ → Ends bound tail →
        primary (Formula.rules n) .top ⟨cs, names⟩ = some (form, ⟨tail, names⟩)) :
    ReadsOperand text form := by
  have hbegins : Begins text := fun bound tail hends =>
    ⟨_, hnext tail hends.endsOperand, ⟨.inl ho, fun _ _ => ⟨bound, hends⟩⟩⟩
  refine ⟨hbegins, ?_⟩
  intro bound n cs tail names hcs hends hlen
  have hpos := List.length_pos_iff.mpr hbegins.ne_nil
  obtain ⟨m, rfl⟩ : ∃ m, n = m + 1 := ⟨n - 1, by rw [List.length_append] at hlen; omega⟩
  have hfirst := hcs.trans (hnext tail hends.endsOperand)
  exact unary_of_primary hfirst ho (hprimary hfirst hends) hends

theorem ReadsOperand.within (h : ReadsOperand text form) (level : Nat) :
    ReadsWithin level text form where
  begins := h.begins
  reads := by
    intro bound n cs tail rest names final hbound hnext hends hoperators hlen
    have hpos := List.length_pos_iff.mpr h.begins.ne_nil
    have hsum := hlen
    rw [List.length_append] at hsum
    obtain ⟨m, rfl⟩ : ∃ m, n = m + 1 := ⟨n - 1, by omega⟩
    obtain ⟨lexeme, hlexeme, hstarts⟩ := h.begins _ tail hends
    have hfirst : firstOperand (Formula.rules (m + 1)) .top (rankOf bound) ⟨cs, names⟩ =
        some (form, ⟨tail, names⟩) :=
      (firstOperand_of_starts (hnext.trans hlexeme) hstarts).trans (h.reads hnext hends hlen)
    rw [combined, bind_of_some hfirst]
    exact hoperators m (by omega)

/-- A whole expression, with no operator after it. -/
theorem ReadsWithin.sequence (hw : ReadsWithin level text form) (hlevel : 0 < level)
    (hends : Ends 0 rest) (hlen : (text ++ rest).length ≤ n) :
    Formula.sequence (Formula.rules (n + 1)) .top ⟨text ++ rest, names⟩ =
      some (form, ⟨rest, names⟩) := by
  obtain ⟨lexeme, hlexeme, hstarts⟩ := hw.begins _ rest hends
  obtain ⟨token, after, hclose, hcloses⟩ := hends.exists_next?
  have hcombined : combined (Formula.rules n) (rankOf 0) ⟨text ++ rest, names⟩ =
      some (form, ⟨rest, names⟩) :=
    hw.reads hlevel rfl (hends.mono (Nat.zero_le _)) (fun m _ => operators_of_ends hends) hlen
  rw [combined, rankOf] at hcombined
  have hcombination : combination (Formula.rules n) .top ⟨text ++ rest, names⟩ =
      some (form, ⟨rest, names⟩) := by
    rw [combination, ← bind_assoc, bind_of_some hcombined, bind_of_some (peek_of_next? hclose)]
    cases hcloses with
    | stop => rfl
    | close => rfl
    | @operator op h => cases op <;> cases h
  have hassignment : (Formula.rules (n + 1)).assignment .top ⟨text ++ rest, names⟩ =
      some (form, ⟨rest, names⟩) := (assignment_of_starts hlexeme hstarts).trans hcombination
  have hcomma : eatsMark "," ⟨rest, names⟩ = some (false, ⟨rest, names⟩) := by
    refine eats_of_ne hclose ?_
    cases hcloses with
    | stop => rintro ⟨⟩
    | close =>
      show Token.mark ")" ≠ .mark ","
      decide
    | @operator op h => cases op <;> cases h
  have hremaining : remaining ⟨rest, names⟩ = some (rest.length + 1, ⟨rest, names⟩) := rfl
  rw [Formula.sequence, bind_of_some hassignment, bind_of_some hremaining, sequenceRest,
    bind_of_some hcomma]
  rfl

theorem ReadsWithin.group (hw : ReadsWithin level text form) (hlevel : 0 < level) :
    ReadsOperand ('(' :: text ++ [')']) (.group form) where
  begins := fun _ _ _ => ⟨_, next?_open, ⟨.inl .group, by rintro text ⟨⟩⟩⟩
  reads := by
    intro bound n cs tail names hnext hends hlen
    rw [List.append_assoc, List.cons_append, List.length_cons] at hlen
    obtain ⟨m, rfl⟩ : ∃ m, n = m + 1 := ⟨n - 1, by omega⟩
    have hopen : next? cs = some ⟨.mark "(", false, text ++ ')' :: tail⟩ := by
      rw [hnext, List.append_assoc, List.cons_append, next?_open]
      rfl
    refine unary_of_primary hopen .group (primary_group hopen ?_) hends
    exact hw.sequence hlevel (.close tail) (Nat.le_of_succ_le_succ hlen)

/-- The text begins with a character that joins no prefix operator to a longer mark. -/
def StandsOff (text : List Char) : Prop :=
  ∃ c more, text = c :: more ∧ (c = '(' ∨ c.isAlphanum = true ∨ c = '_')

theorem ReadsOperand.prefixed (h : ReadsOperand text form) (hoff : StandsOff text) (op : UnaryOp) :
    ReadsOperand (op.symbol.toList ++ text) (.unary op.symbol form) := by
  obtain ⟨c, more, rfl, hc⟩ := hoff
  have hsign : ∀ tail, next? (op.symbol.toList ++ c :: more ++ tail) =
      some ⟨.mark op.symbol, false, c :: more ++ tail⟩ := by
    intro tail
    rw [List.append_assoc, List.cons_append, next?_sign op hc]
  refine ⟨fun _ tail _ => ⟨_, hsign tail, ⟨.inr ⟨op, rfl⟩, by rintro text ⟨⟩⟩⟩, ?_⟩
  intro bound n cs tail names hnext hends hlen
  have hsymbol : op.symbol.toList.length = 1 := by cases op <;> rfl
  rw [List.append_assoc, List.length_append, hsymbol] at hlen
  obtain ⟨m, rfl⟩ : ∃ m, n = m + 1 := ⟨n - 1, by omega⟩
  have hargument : (Formula.rules (m + 1)).unary .top ⟨c :: more ++ tail, names⟩ =
      some (form, ⟨tail, names⟩) := h.reads rfl hends (by omega)
  have hsigned : prefixOperator? (.mark op.symbol) = some op.symbol := by cases op <;> rfl
  rw [unary, bind_of_some (peek_of_next? (hnext.trans (hsign tail)))]
  dsimp only
  rw [hsigned]
  dsimp only
  rw [accept_bind, bind_of_some hargument]
  rfl

/-- Two operands and their operator: on the left nothing binds looser, on the right all binds
tighter. -/
theorem ReadsWithin.binary {op : BinaryOp} {leftLevel rightLevel : Nat}
    {leftText rightText : List Char} {left right : Form} (hl : ReadsWithin leftLevel leftText left)
    (hll : op.precedence ≤ leftLevel) (hr : ReadsWithin rightLevel rightText right)
    (hrl : op.precedence < rightLevel)
    (hjoin : Form.join? op.mark left right = some (.binary op.mark left right)) :
    ReadsWithin op.precedence (leftText ++ ' ' :: (op.mark.toList ++ ' ' :: rightText))
      (.binary op.mark left right) where
  begins := hl.begins.append_operator op
  reads := by
    intro bound n cs tail rest names final hbound hnext hends hoperators hlen
    have hassoc : leftText ++ ' ' :: (op.mark.toList ++ ' ' :: rightText) ++ tail =
        leftText ++ ' ' :: (op.mark.toList ++ ' ' :: (rightText ++ tail)) := by simp
    rw [hassoc] at hnext hlen
    refine hl.reads (by omega) hnext (.operator _ hll) (fun m hm => ?_) hlen
    -- Behind the left operand the operator comes next, and it is tighter than `bound`.
    simp only [List.length_cons, List.length_append] at hm
    obtain ⟨k, rfl⟩ : ∃ k, m = k + 1 := ⟨m - 1, by omega⟩
    have hright : combined (Formula.rules (k + 1)) (rankOf op.precedence)
        ⟨' ' :: (rightText ++ tail), names⟩ = some (right, ⟨tail, names⟩) :=
      hr.reads hrl next?_blank (hends.mono (Nat.le_of_lt hrl)) (fun _ _ => operators_of_ends hends)
        (by rw [List.length_append]; omega)
    rw [operators_of_mark (next?_blank.trans (next?_mark op)) hbound hright hjoin]
    exact hoperators k (by omega)

theorem keywordStatement?_eq_none {place : Place} {text : String}
    (h : text ∉ Expr.reservedWords) : keywordStatement? rules context place text = none := by
  rw [keywordStatement?.eq_def]
  split
  case h_17 => rfl
  all_goals exact absurd (by decide) h

/-- A statement that begins like an expression is one. -/
theorem statement_of_starts {place : Place} (h : next? cs = some lexeme) (hs : lexeme.Starts) :
    statement rules context place ⟨cs, names⟩ =
      expressionStatement rules context ⟨cs, names⟩ := by
  obtain ⟨token, newline, rest⟩ := lexeme
  have hword : ∀ text, token = .word text false →
      keywordStatement? rules context place text = none → text ≠ "let" → text ≠ "import" →
      wordStatement rules context place ⟨token, newline, rest⟩ text ⟨cs, names⟩ =
        expressionStatement rules context ⟨cs, names⟩ := by
    intro text htoken hnone hlet himport
    obtain ⟨bound, hends⟩ := hs.word text htoken
    rw [wordStatement, hnone]
    simp [hlet, himport, beginsAsyncFunction_of_ends hends]
  rw [statement, bind_of_some (peek_of_next? h)]
  rcases hs.token with ho | ⟨op, ho⟩
  · cases ho with
    | number value => rfl
    | truth flag => cases flag <;> exact hword _ rfl rfl (by decide) (by decide)
    | name hfree =>
      refine hword _ rfl (keywordStatement?_eq_none hfree) ?_ ?_ <;>
      · rintro rfl
        exact hfree (by decide)
    | group => rfl
  · cases ho
    cases op <;> rfl

/-- An expression is a statement if the text ends with it. -/
theorem expressionStatement_of_sequence
    (h : sequence rules context ⟨cs, names⟩ = some (form, ⟨[], names⟩)) :
    expressionStatement rules context ⟨cs, names⟩ = some (some form, ⟨[], names⟩) := by
  have hpeek : peek ⟨[], names⟩ = some (⟨.stop, false, []⟩, ⟨[], names⟩) :=
    peek_of_next? next?_nil
  have hcolon : seesMark ":" ⟨[], names⟩ = some (false, ⟨[], names⟩) := by
    rw [seesMark, sees, bind_of_some hpeek]
    rfl
  have hsees : seesStatementEnd ⟨[], names⟩ = some (true, ⟨[], names⟩) := by
    rw [seesStatementEnd, bind_of_some hpeek]
    rfl
  have hend : semicolon ⟨[], names⟩ = some ((), ⟨[], names⟩) := by
    rw [semicolon, eatsMark, bind_of_some (eats_of_ne next?_nil (by rintro ⟨⟩)),
      if_neg (by decide), bind_of_some hsees]
    rfl
  rw [expressionStatement, bind_of_some h, bind_of_some hcolon, Bool.and_false,
    if_neg (by decide), bind_of_some hend]
  rfl

theorem skipInterpreterLine_of_begins (h : Begins text) : skipInterpreterLine text = text := by
  rw [skipInterpreterLine.eq_def]
  split
  · next rest =>
    obtain ⟨lexeme, hnext, -⟩ := h 0 [] .stop
    have hsharp : isDigitOf 10 '#' = false ∧ isWordStart '#' = false ∧ isWordStart '!' = false := by
      decide +kernel
    rw [List.cons_append, next?_cons (by decide) (by decide) (by decide)] at hnext
    simp [token?, word?, wordChars, hsharp] at hnext
  · rfl

/-- A text of one expression is a program of one statement. -/
theorem program?_of_within (hw : ReadsWithin level text form) (hlevel : 0 < level) :
    program? text = some [some form] := by
  obtain ⟨lexeme, hnext, hstarts⟩ := hw.begins 0 [] .stop
  have hsequence : sequence (Formula.rules (text.length + 1)) .top ⟨text ++ [], []⟩ =
      some (form, ⟨[], []⟩) := hw.sequence hlevel .stop (by simp)
  rw [List.append_nil] at hnext hsequence
  have hstatement : (Formula.rules (text.length + 2)).statement .top .listed ⟨text, []⟩ =
      some (some form, ⟨[], []⟩) :=
    (statement_of_starts hnext hstarts).trans (expressionStatement_of_sequence hsequence)
  have hmore : sees .stop ⟨text, []⟩ = some (false, ⟨text, []⟩) := by
    have hne : lexeme.token ≠ .stop := by
      intro hstop
      have ho := hstarts.opens (by simp [hstop])
      rw [hstop] at ho
      cases ho
    rw [sees, bind_of_some (peek_of_next? hnext), beq_eq_false_iff_ne.mpr hne]
    rfl
  have hdone : sees .stop ⟨[], []⟩ = some (true, ⟨[], []⟩) := by
    rw [sees, bind_of_some (peek_of_next? next?_nil)]
    rfl
  have hrest : statements (Formula.rules (text.length + 2)) (text.length + 1) ⟨[], []⟩ =
      some ([], ⟨[], []⟩) := by
    rw [statements, bind_of_some hdone]
    rfl
  rw [program?, skipInterpreterLine_of_begins hw.begins, statements, bind_of_some hmore,
    if_neg (by decide), bind_of_some hstatement, bind_of_some hrest]
  rfl

/-- A form, in parentheses if it needs them. -/
def Form.grouped (needs : Bool) (form : Form) : Form := if needs then .group form else form

end Formula

open Formula

theorem BinaryOp.precedence_range (op : BinaryOp) : 0 < op.precedence ∧ op.precedence ≤ 6 := by
  cases op <;> decide

namespace Expr

variable {expr : Expr}

/-- The form that the text of the expression has in the grammar. -/
def form : Expr → Form
  | literal (.int value) => .number (.ofDecimal value.toInt.toNat 0)
  | literal (.bool flag) => .bool flag
  | name signal => .name signal
  | unary op argument => .unary op.symbol (argument.form.grouped (argument.precedence ≤ 7))
  | binary op left right _ =>
    .binary op.mark (left.form.grouped (left.precedence < op.precedence))
      (right.form.grouped (right.precedence ≤ op.precedence))

theorem ofForm_grouped {needs : Bool} {inner : Form} :
    ofForm (inner.grouped needs) = ofForm inner := by
  cases needs <;> rfl

theorem operatorOf_mark (op : BinaryOp) : operatorOf op.mark = .ok op := by cases op <;> rfl

/-- The form stands for the expression. -/
theorem ofForm_form (h : expr.Printable) : ofForm expr.form = .ok expr := by
  induction expr with
  | literal value =>
    cases value with
    | int value => exact ofNumber_ofDecimal h
    | bool flag => rfl
  | name signal => rfl
  | unary op argument ih =>
    rw [form, ofForm, ofForm_grouped, ih h]
    cases op <;> rfl
  | binary op left right negated ihl ihr =>
    obtain ⟨hleft, hright, rfl⟩ := h
    rw [form, ofForm, operatorOf_mark, ofForm_grouped, ofForm_grouped, ihl hleft, ihr hright]
    rfl

/-- The text of the expression in the grammar. -/
def chars (expr : Expr) : List Char := (expr.written BinaryOp.mark).toList

def operandChars (needs : Bool) (expr : Expr) : List Char :=
  (wrapped needs (expr.written BinaryOp.mark)).toList

theorem operandChars_true : operandChars true expr = '(' :: expr.chars ++ [')'] := by
  simp [operandChars, wrapped, chars]

/-- What has no operator is read as an operand. -/
theorem readsOperand_of_atom (h : expr.Printable) (hatom : 7 < expr.precedence) :
    ReadsOperand expr.chars expr.form ∧ StandsOff expr.chars := by
  cases expr with
  | literal value =>
    cases value with
    | int value =>
      have hchars : (literal (.int value)).chars = Nat.toDigits 10 value.toInt.toNat :=
        toList_decimal h
      rw [hchars]
      refine ⟨readsOperand_of_token (.number _) (fun tail htail => next?_toDigits _ htail)
        fun hnext _ => primary_number hnext, ?_⟩
      obtain ⟨d, ds, hds⟩ := List.exists_cons_of_ne_nil
        (@Nat.toDigits_ne_nil value.toInt.toNat 10)
      have hdigit : d.isDigit = true :=
        Nat.isDigit_of_mem_toDigits (b := 10) (by decide) (by decide) (hds ▸ List.mem_cons_self)
      exact ⟨d, ds, hds, .inr (.inl (by simp [Char.isAlphanum, hdigit]))⟩
    | bool flag =>
      have hword : ∀ tail, EndsOperand tail → next? ((literal (.bool flag)).chars ++ tail) =
          some ⟨.word (if flag then "true" else "false") false, false, tail⟩ := by
        intro tail htail
        cases flag with
        | false => exact next?_name (by decide) (by decide : "alse".toList.all _ = true) htail
        | true => exact next?_name (by decide) (by decide : "rue".toList.all _ = true) htail
      refine ⟨readsOperand_of_token (.truth flag) hword (primary_truth flag), ?_⟩
      cases flag with
      | false => exact ⟨'f', _, rfl, by decide⟩
      | true => exact ⟨'t', _, rfl, by decide⟩
  | name signal =>
    obtain ⟨c, more, rfl, hc, hmore, hfree⟩ := exists_of_isPlainName h
    have hchars : (name (String.ofList (c :: more))).chars = c :: more := String.toList_ofList
    rw [hchars]
    refine ⟨readsOperand_of_token (.name hfree) (fun tail htail => next?_name hc hmore htail)
      fun hnext hends => primary_name hnext hfree hends, c, more, rfl, ?_⟩
    simp only [Bool.or_eq_true, beq_iff_eq] at hc
    exact .inr (hc.imp_left fun halpha => by simp [Char.isAlphanum, halpha])
  | unary op argument => simp [precedence] at hatom
  | binary op left right negated =>
    have := op.precedence_range
    rw [precedence] at hatom
    omega

theorem precedence_pos (expr : Expr) : 0 < expr.precedence := by
  cases expr with
  | binary op left right negated => exact op.precedence_range.1
  | _ => simp [precedence]

/-- An operand in parentheses is as tight as it must be; one without is as tight as it is. -/
theorem exists_within_operand (needs : Bool) (bound : Nat)
    (hw : ReadsWithin expr.precedence expr.chars expr.form)
    (h : needs = false → bound ≤ expr.precedence) :
    ∃ level, bound ≤ level ∧
      ReadsWithin level (operandChars needs expr) (expr.form.grouped needs) := by
  cases needs with
  | false => exact ⟨expr.precedence, h rfl, hw⟩
  | true =>
    rw [operandChars_true]
    exact ⟨bound, Nat.le_refl _, (hw.group expr.precedence_pos).within bound⟩

theorem not_isCoalescing {needs : Bool} (expr : Expr) :
    (expr.form.grouped needs).isCoalescing = false := by
  cases needs with
  | true => rfl
  | false =>
    cases expr with
    | literal value => cases value <;> rfl
    | binary op left right negated => cases op <;> rfl
    | _ => rfl

theorem join?_mark {left right : Form} (op : BinaryOp) (hl : left.isCoalescing = false)
    (hr : right.isCoalescing = false) :
    Form.join? op.mark left right = some (.binary op.mark left right) := by
  have hpower : (op.mark == "**") = false := by cases op <;> rfl
  have hcoalesce : (op.mark == "??") = false := by cases op <;> rfl
  simp [Form.join?, hpower, hcoalesce, hl, hr]

/-- The text of an expression is read as its form, as far as its operators bind. -/
theorem readsWithin_chars (h : expr.Printable) :
    ReadsWithin expr.precedence expr.chars expr.form := by
  induction expr with
  | literal value => exact (readsOperand_of_atom h (by simp [precedence])).1.within _
  | name signal => exact (readsOperand_of_atom h (by simp [precedence])).1.within _
  | unary op argument ih =>
    have hargument : ReadsOperand (operandChars (argument.precedence ≤ 7) argument)
        (argument.form.grouped (argument.precedence ≤ 7)) ∧
        StandsOff (operandChars (argument.precedence ≤ 7) argument) := by
      by_cases hle : argument.precedence ≤ 7
      · rw [decide_eq_true hle, operandChars_true]
        exact ⟨(ih h).group argument.precedence_pos, '(', _, rfl, .inl rfl⟩
      · rw [decide_eq_false hle]
        exact readsOperand_of_atom h (by omega)
    have hchars : (unary op argument).chars =
        op.symbol.toList ++ operandChars (argument.precedence ≤ 7) argument := by
      simp [chars, operandChars, written]
    rw [hchars]
    exact (hargument.1.prefixed hargument.2 op).within _
  | binary op left right negated ihl ihr =>
    obtain ⟨leftLevel, hll, hl⟩ := exists_within_operand (left.precedence < op.precedence)
      op.precedence (ihl h.1) fun hneeds => Nat.le_of_not_lt (of_decide_eq_false hneeds)
    obtain ⟨rightLevel, hrl, hr⟩ := exists_within_operand (right.precedence ≤ op.precedence)
      (op.precedence + 1) (ihr h.2.1) fun hneeds => Nat.lt_of_not_le (of_decide_eq_false hneeds)
    have hchars : (binary op left right negated).chars =
        operandChars (left.precedence < op.precedence) left ++ ' ' :: (op.mark.toList ++
          ' ' :: operandChars (right.precedence ≤ op.precedence) right) := by
      simp [chars, operandChars, written]
    rw [hchars]
    exact hl.binary hll hr hrl (join?_mark op left.not_isCoalescing right.not_isCoalescing)

/-- Reading the text of an expression gives the expression. -/
theorem ofText_text (expr : Expr) (h : expr.Printable) : ofText expr.text = .ok expr := by
  obtain ⟨last, hdouble⟩ := doubles_written h none []
  have hchars : doubleEquality none expr.text.toList = expr.chars := by
    simpa [doubleEquality, chars, text] using hdouble
  have hstring : (some expr.form == some .string) = false := by
    cases expr with
    | literal value => cases value <;> rfl
    | _ => rfl
  have hread : ofProgram (program? expr.chars) = .ok expr := by
    rw [program?_of_within (readsWithin_chars h) expr.precedence_pos, ofProgram, Option.map_some,
      dropDirectives, List.dropWhile_cons, hstring]
    exact ofForm_form h
  rw [ofText, hchars, hread]

/-- Operators of every precedence, with and without parentheses. -/
def mixed : Expr :=
  plain .and (unary .not (plain .or (plain .eq (name "a") (int 1)) (name "b")))
    (plain .le (plain .mul (unary .neg (name "x")) (plain .add (name "y") (int 3)))
      (plain .sub (plain .sub (int 5) (plain .sub (int 6) (unary .neg (unary .not (name "z")))))
        (plain .div (literal (.bool true)) (int 2147483647))))

theorem ofText_text_mixed :
    mixed.Printable ∧
      mixed.text = "!(a = 1 || b) && -x * (y + 3) <= 5 - (6 - -(!z)) - true / 2147483647" ∧
      ofText mixed.text = .ok mixed :=
  ⟨by decide +kernel, by decide +kernel, ofText_text mixed (by decide +kernel)⟩

end Expr

end CircuitScript
