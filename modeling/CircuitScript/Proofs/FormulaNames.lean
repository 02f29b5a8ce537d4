import CircuitScript.Expr.Reader
import CircuitScript.Proofs.Outcome
/-!
The names in an expression. Whatever the grammar reads, each name in its result was a word of the
text: it begins with a letter, an underscore or a dollar sign, and all its characters are those of
words.
-/
namespace CircuitScript.Formula

variable {α β : Type} {P : String → Prop} {form left right : Form} {rules : Rules}
  {context : Context} {lexeme : Lexeme}

/-- The text is spelt as a word. -/
def IsWord (text : String) : Prop :=
  ∃ c more, text = String.ofList (c :: more) ∧ isWordStart c = true ∧
    ∀ d ∈ more, isWordPart d = true

/-- By induction on the fuel: the first character answers to `isPart`, and those behind it to the
test for the inside of a word, whether they are spelt out or escaped. -/
theorem wordChars_spec {isPart : Char → Bool} {fuel : Nat} {cs more rest : List Char} {c : Char}
    {escaped : Bool} (h : wordChars isPart fuel cs = some (c :: more, escaped, rest)) :
    isPart c = true ∧ ∀ d ∈ more, isWordPart d = true := by
  induction fuel generalizing isPart cs c more escaped rest with
  | zero => cases h
  | succ fuel ih =>
    have hmore : ∀ {cs chars rest : List Char} {escaped : Bool},
        wordChars isWordPart fuel cs = some (chars, escaped, rest) →
          ∀ d ∈ chars, isWordPart d = true := by
      intro cs chars rest escaped hw d hd
      cases chars with
      | nil => cases hd
      | cons e chars =>
        obtain ⟨he, hrest⟩ := ih hw
        rcases List.mem_cons.mp hd with rfl | hd
        · exact he
        · exact hrest d hd
    unfold wordChars at h
    split at h
    · simp only [Option.bind_eq_bind, Option.bind_eq_some_iff] at h
      obtain ⟨⟨code, after⟩, -, h⟩ := h
      split at h
      · next hpart =>
        obtain ⟨⟨chars, inner, last⟩, hw, h⟩ := Option.bind_eq_some_iff.mp h
        cases h
        exact ⟨hpart, hmore hw⟩
      · cases h
    · cases h
    · split at h
      · next hpart =>
        obtain ⟨⟨chars, inner, last⟩, hw, h⟩ := Option.bind_eq_some_iff.mp h
        cases h
        exact ⟨hpart, hmore hw⟩
      · cases h
    · cases h

theorem isWord_of_word? {cs rest : List Char} {text : String} {escaped : Bool}
    (h : word? cs = some (text, escaped, rest)) : IsWord text := by
  rw [word?] at h
  split at h
  · cases h
  · next chars inner after hne hw =>
    cases h
    cases chars with
    | nil => exact absurd rfl hne
    | cons c more =>
      obtain ⟨hc, hmore⟩ := wordChars_spec hw
      exact ⟨c, more, rfl, hc, hmore⟩
  · cases h

/-- Of the many kinds of tokens only one carries a word, and it comes straight from the text. -/
theorem isWord_of_next? {cs : List Char} {text : String} {escaped : Bool}
    (h : next? cs = some lexeme) (ht : lexeme.token = .word text escaped) : IsWord text := by
  simp only [next?, Option.bind_eq_bind, Option.bind_eq_some_iff] at h
  obtain ⟨⟨newline, cs⟩, -, ⟨token, rest⟩, htoken, ⟨⟩⟩ := h
  dsimp only at ht
  subst ht
  unfold token? at htoken
  split at htoken
  · cases htoken
  · split at htoken
    · obtain ⟨_, -, ⟨⟩⟩ := Option.map_eq_some_iff.mp htoken
    · split at htoken
      · obtain ⟨_, -, ⟨⟩⟩ := Option.map_eq_some_iff.mp htoken
      · split at htoken
        · obtain ⟨⟨_, _, _⟩, hw, ⟨⟩⟩ := Option.map_eq_some_iff.mp htoken
          exact isWord_of_word? hw
        · split at htoken
          · obtain ⟨_, -, ⟨⟩⟩ := Option.map_eq_some_iff.mp htoken
          · simp only [mark?, Option.bind_eq_bind, Option.bind_eq_some_iff] at htoken
            obtain ⟨mark, -, htoken⟩ := htoken
            split at htoken
            · cases htoken
            · cases htoken

/-- The token is a word only if it is spelt as one. -/
def Lexeme.Spelt (lexeme : Lexeme) : Prop :=
  ∀ text escaped, lexeme.token = .word text escaped → IsWord text

/-- Every name in the form has the property. -/
def Form.Named (P : String → Prop) : Form → Prop
  | .name text => P text
  | .group inner => inner.Named P
  | .unary _ argument => argument.Named P
  | .binary _ left right => left.Named P ∧ right.Named P
  | _ => True

/-- Operands that may be joined keep their names. -/
theorem named_join? {op : String} (h : Form.join? op left right = some form)
    (hl : left.Named P) (hr : right.Named P) : form.Named P := by
  rw [Form.join?] at h
  split at h
  · cases h
  · split at h
    · cases h
    · split at h
      · cases h
      · cases h
        exact ⟨hl, hr⟩

theorem named_ofList {parts : List Part} {comma : Bool} : (Form.ofList parts comma).Named P := by
  rw [Form.ofList]
  split <;> trivial

theorem named_ofObject {parts : List Part} {comma : Bool} :
    (Form.ofObject parts comma).Named P := by
  rw [Form.ofObject]
  split <;> trivial

namespace Reader

variable {Q : α → Prop}

theorem gives_fails : Gives Q (Reader.fails : Reader α) := by
  refine .of_ok ?_
  rintro source after a - ⟨⟩

theorem gives_lift {result : Option α} (h : ∀ a, result = some a → Q a) :
    Gives Q (StateT.lift result : Reader α) := by
  refine .of_ok fun {source after a} _ ha => ?_
  cases result with
  | none => cases ha
  | some found =>
    cases ha
    exact ⟨h a rfl, trivial⟩

/-- To look ahead is to cut the next token off the text. -/
theorem gives_peek : Gives Lexeme.Spelt peek := by
  refine .of_ok fun {source after lexeme} _ h => ?_
  have hrun := outcome_eq_ok_iff_some.mp h
  obtain ⟨found, hfound, ⟨⟩⟩ := Option.map_eq_some_iff.mp hrun
  exact ⟨fun text escaped ht => isWord_of_next? hfound ht, trivial⟩

end Reader

open Reader

/-- Every name in a form was a word of the text. -/
abbrev Form.Worded (form : Form) : Prop := form.Named IsWord

/-- Whatever the rules give has only words for names. -/
structure Rules.Worded (rules : Rules) : Prop where
  assignment : ∀ context, Gives Form.Worded (rules.assignment context)
  unary : ∀ context, Gives Form.Worded (rules.unary context)
  operators : ∀ context rank left, left.Worded → Gives Form.Worded (rules.operators context rank left)
  suffixes : ∀ context calls chained form, form.Worded →
    Gives Form.Worded (rules.suffixes context calls chained form)
  statement : ∀ context place,
    Gives (fun result => ∀ form ∈ result, form.Worded) (rules.statement context place)

theorem gives_sequenceRest {fuel : Nat} {first : Form} (hf : first.Worded) :
    Gives Form.Worded (sequenceRest rules context first fuel) := by
  induction fuel generalizing first with
  | zero => exact gives_fails
  | succ fuel ih =>
    refine .andThen fun comma => ?_
    split
    · exact .andThen fun _ => ih trivial
    · exact .pure hf

/-- A comma drops what stands before it, so that only a single expression keeps its names. -/
theorem gives_sequence (h : rules.Worded) : Gives Form.Worded (sequence rules context) :=
  .bind (h.assignment context) fun _ hf => .andThen fun _ => gives_sequenceRest hf

/-- A word that stands for a value or begins a function or a class is no name. -/
theorem gives_wordOperand {text : String} (hw : IsWord text) :
    Gives Form.Worded (wordOperand rules context lexeme text) := by
  refine .andThen fun _ => ?_
  split
  · exact .andThen fun _ => .andThen fun _ => .pure trivial
  · split
    · exact .pure trivial
    · exact .pure trivial
    · exact .pure trivial
    · exact .pure trivial
    · exact .andThen fun _ => .pure trivial
    · exact .andThen fun _ => .pure trivial
    · exact .andThen fun _ => .pure hw

/-- Names come from words; what stands in parentheses is read by the same rules, and all other
operands have none. -/
theorem gives_primary (h : rules.Worded) : Gives Form.Worded (primary rules context) := by
  refine .bind gives_peek fun lexeme hl => ?_
  split
  · exact .andThen fun _ => .pure trivial
  · exact .andThen fun _ => .pure trivial
  · exact .andThen fun _ => .pure trivial
  · next text escaped ht => exact gives_wordOperand (hl text escaped ht)
  · exact .andThen fun _ => .pure trivial
  · refine .andThen fun _ => .bind (gives_sequence h) fun inner hi => ?_
    exact .andThen fun _ => .pure hi
  · exact .andThen fun _ => .andThen fun _ => .pure named_ofList
  · exact .andThen fun _ => .andThen fun _ => .pure named_ofObject
  · exact .andThen fun _ => .andThen fun _ => .pure trivial
  · exact .andThen fun _ => .andThen fun _ => .pure trivial
  · exact .andThen fun _ => .andThen fun _ => .pure trivial
  · exact gives_fails

/-- Behind a suffix, an operand is a member or the result of a call, so no name is left. -/
theorem gives_suffixes (h : rules.Worded) {calls chained : Bool} (hf : form.Worded) :
    Gives Form.Worded (suffixes rules context calls chained form) := by
  have hplace : (if chained then Form.other else .member).Worded := by
    split <;> trivial
  refine .andThen fun lexeme => ?_
  dsimp only
  generalize (if chained then Form.other else .member) = place at hplace ⊢
  split
  · exact .andThen fun _ => .andThen fun _ => h.suffixes _ _ _ _ hplace
  · split
    · exact .pure hf
    · exact .andThen fun _ => .andThen fun _ => h.suffixes _ _ _ _ hplace
  · refine .andThen fun _ => .andThen fun _ => .andThen fun _ => ?_
    split
    · exact .andThen fun _ => h.suffixes _ _ _ _ trivial
    · refine .andThen fun _ => ?_
      split
      · exact .andThen fun _ => h.suffixes _ _ _ _ trivial
      · exact .andThen fun _ => h.suffixes _ _ _ _ trivial
  · split
    · exact .andThen fun _ => .andThen fun _ => h.suffixes _ _ _ _ trivial
    · exact .pure hf
  · exact .andThen fun _ => .andThen fun _ => .andThen fun _ => h.suffixes _ _ _ _ trivial
  · exact .pure hf

theorem gives_creation : Gives Form.Worded (creation rules context) := by
  refine .andThen fun target => ?_
  split
  · exact .andThen fun _ => .pure trivial
  · refine .andThen fun _ => .andThen fun _ => .andThen fun _ => .andThen fun _ => ?_
    refine .andThen fun _ => .andThen fun _ => .andThen fun _ => ?_
    split
    · exact .andThen fun _ => .pure trivial
    · exact .pure trivial

theorem gives_subject (h : rules.Worded) : Gives Form.Worded (subject rules context) := by
  refine .andThen fun created => ?_
  split
  · exact gives_creation
  · refine .andThen fun inherited => ?_
    split
    · exact .andThen fun _ => .pure trivial
    · refine .andThen fun imported => ?_
      split
      · exact .andThen fun _ => .pure trivial
      · exact gives_primary h

theorem gives_operand (h : rules.Worded) : Gives Form.Worded (operand rules context) :=
  .bind (gives_subject h) fun form hf => h.suffixes _ _ _ form hf

theorem gives_postfixed (h : rules.Worded) : Gives Form.Worded (postfixed rules context) := by
  refine .bind (gives_operand h) fun form hf => .andThen fun lexeme => ?_
  split
  · exact .andThen fun _ => .andThen fun _ => .pure trivial
  · exact .pure hf

/-- The operand of a sign keeps its names; of what is awaited, or counted up or down, none is
left. -/
theorem gives_unary (h : rules.Worded) : Gives Form.Worded (unary rules context) := by
  refine .andThen fun lexeme => ?_
  split
  · exact .andThen fun _ => .bind (h.unary context) fun argument ha => .pure ha
  · split
    · split
      · exact .andThen fun _ => .andThen fun _ => .andThen fun _ => .pure trivial
      · exact .andThen fun _ => gives_postfixed h
    · exact .andThen fun _ => .andThen fun _ => .andThen fun _ => .pure trivial
    · exact .andThen fun _ => .andThen fun _ => .andThen fun _ => .pure trivial
    · exact gives_postfixed h

theorem gives_firstOperand (h : rules.Worded) {rank : Nat} :
    Gives Form.Worded (firstOperand rules context rank) := by
  refine .andThen fun lexeme => ?_
  split
  · refine .andThen fun _ => .andThen fun _ => .andThen fun _ => .andThen fun _ => ?_
    exact .andThen fun _ => .pure trivial
  · exact gives_unary h

/-- The operators bind by rank: what was read so far becomes the left operand of what follows. -/
theorem gives_operators (h : rules.Worded) {rank : Nat} (hl : left.Worded) :
    Gives Form.Worded (operators rules context rank left) := by
  refine .andThen fun lexeme => ?_
  split
  · next op own _ =>
    split
    · refine .andThen fun _ => .bind (gives_firstOperand h) fun first hfirst => ?_
      refine .bind (h.operators _ _ first hfirst) fun right hr => ?_
      refine .bind (gives_lift fun form hform => named_join? hform hl hr) fun form hform => ?_
      exact h.operators _ _ form hform
    · exact .pure hl
  · exact .pure hl

/-- What is assigned, or chosen by a question mark, is no arithmetic, so none of its names is
left. -/
theorem gives_combination (h : rules.Worded) : Gives Form.Worded (combination rules context) := by
  refine .bind (gives_firstOperand h) fun first hfirst => ?_
  refine .bind (h.operators _ _ first hfirst) fun form hf => .andThen fun lexeme => ?_
  split
  · split
    · exact .andThen fun _ => .andThen fun _ => .andThen fun _ => .pure trivial
    · split
      · exact .andThen fun _ => .andThen fun _ => .andThen fun _ => .andThen fun _ => .pure trivial
      · exact .pure hf
  · exact .pure hf

theorem gives_yieldRest : Gives Form.Worded (yieldRest rules context) := by
  refine .andThen fun _ => ?_
  dsimp only
  split
  · exact .pure trivial
  · refine .andThen fun _ => .andThen fun _ => ?_
    split
    · exact .andThen fun _ => .pure trivial
    · exact .pure trivial

theorem gives_assignment (h : rules.Worded) : Gives Form.Worded (assignment rules context) := by
  refine .andThen fun lexeme => ?_
  split
  · split
    · exact .andThen fun _ => .andThen fun _ => gives_yieldRest
    · exact gives_combination h
  · exact gives_combination h

theorem gives_expressionStatement (h : rules.Worded) :
    Gives (fun result => ∀ form ∈ result, form.Worded) (expressionStatement rules context) := by
  refine .bind (gives_sequence h) fun form hf => .andThen fun _ => .ite ?_ ?_
  · exact .andThen fun _ => .andThen fun _ => .pure (by simp)
  · refine .andThen fun _ => .pure ?_
    rintro _ ⟨⟩
    exact hf

theorem isWord_let : IsWord "let" := by
  refine ⟨'l', ['e', 't'], rfl, by decide +kernel, fun d hd => ?_⟩
  simp only [List.mem_cons, List.not_mem_nil, or_false] at hd
  rcases hd with rfl | rfl
  · decide +kernel
  · decide +kernel

/-- The word `let` is a name where no declaration follows it. -/
theorem gives_letStatement (h : rules.Worded) {place : Place} :
    Gives (fun result => ∀ form ∈ result, form.Worded)
      (letStatement rules context place lexeme) := by
  refine .andThen fun next => ?_
  split
  · refine .bind (h.assignment context) fun form hf => .andThen fun _ => .pure ?_
    rintro _ ⟨⟩
    exact hf
  · refine .bind (gives_sequence h) fun form hf => .pure ?_
    rintro _ ⟨⟩
    exact hf
  · refine .andThen fun _ => .andThen fun _ => .pure ?_
    rintro _ ⟨⟩
    exact isWord_let
  · exact .andThen fun _ => .andThen fun _ => .andThen fun _ => .pure (by simp)

theorem gives_wordStatement (h : rules.Worded) {place : Place} {text : String} :
    Gives (fun result => ∀ form ∈ result, form.Worded)
      (wordStatement rules context place lexeme text) := by
  unfold wordStatement
  split
  · exact .andThen fun _ => .andThen fun _ => .pure (by simp)
  · dsimp only
    split
    · exact gives_letStatement h
    · split
      · exact .andThen fun _ => .andThen fun _ => .pure (by simp)
      · split
        · exact .andThen fun _ => .andThen fun _ => .andThen fun _ => .pure (by simp)
        · exact gives_expressionStatement h

/-- Only a statement that is a lone expression can give a form. -/
theorem gives_statement (h : rules.Worded) {place : Place} :
    Gives (fun result => ∀ form ∈ result, form.Worded) (statement rules context place) := by
  refine .andThen fun lexeme => ?_
  split
  · exact .andThen fun _ => .pure (by simp)
  · exact .andThen fun _ => .pure (by simp)
  · exact .andThen fun _ => .pure (by simp)
  · exact gives_wordStatement h
  · exact gives_expressionStatement h

/-- By induction on the depth of nesting: the rules of one depth refer to those of the next. -/
theorem worded_rules (fuel : Nat) : (Formula.rules fuel).Worded := by
  induction fuel with
  | zero => exact ⟨fun _ => gives_fails, fun _ => gives_fails, fun _ _ _ _ => gives_fails,
      fun _ _ _ _ _ => gives_fails, fun _ _ => gives_fails⟩
  | succ fuel ih =>
    exact ⟨fun _ => gives_assignment ih, fun _ => gives_unary ih,
      fun _ _ _ hl => gives_operators ih hl, fun _ _ _ _ hf => gives_suffixes ih hf,
      fun _ _ => gives_statement ih⟩

theorem gives_statements (h : rules.Worded) {fuel : Nat} :
    Gives (fun results => ∀ result ∈ results, ∀ form ∈ result, form.Worded)
      (statements rules fuel) := by
  induction fuel with
  | zero => exact gives_fails
  | succ fuel ih =>
    refine .andThen fun stops => ?_
    split
    · exact .pure (by simp)
    · refine .bind (h.statement _ _) fun first hfirst => .bind ih fun others hothers => .pure ?_
      exact List.forall_mem_cons.mpr ⟨hfirst, hothers⟩

/-- Every name in the expressions of a text is a word of it. -/
theorem worded_of_program? {text : List Char} {results : List (Option Form)}
    (h : program? text = some results) : ∀ result ∈ results, ∀ form ∈ result, form.Worded := by
  obtain ⟨⟨found, after⟩, hfound, ⟨⟩⟩ := Option.map_eq_some_iff.mp h
  exact ((gives_statements (worded_rules _)).ok trivial (outcome_eq_ok_iff_some.mpr hfound)).1

end CircuitScript.Formula

namespace CircuitScript

namespace Expr

open Formula (Form IsWord)

variable {expr : Expr} {P : String → Prop}

/-- Every name in the expression has the property. -/
def Named (P : String → Prop) : Expr → Prop
  | literal _ => True
  | name signal => P signal
  | binary _ left right _ => left.Named P ∧ right.Named P
  | unary _ argument => argument.Named P

/-- A weaker property holds of the same names. -/
theorem Named.mono {Q : String → Prop} (h : expr.Named P) (hi : ∀ name, P name → Q name) :
    expr.Named Q := by
  induction expr with
  | literal value => trivial
  | name signal => exact hi signal h
  | binary op left right negated ihl ihr => exact ⟨ihl h.1, ihr h.2⟩
  | unary op argument ih => exact ih h

/-- An expression is made of a form part by part, with the same names. -/
theorem named_ofForm {form : Form} (hf : form.Named P) (h : ofForm form = .ok expr) :
    expr.Named P := by
  induction form generalizing expr with
  | number value =>
    simp only [ofForm, ofNumber] at h
    split at h
    · split at h
      · cases h
        trivial
      · cases h
    · cases h
  | bool flag =>
    cases h
    trivial
  | name text =>
    cases h
    exact hf
  | group inner ih => exact ih hf h
  | unary op argument ih =>
    obtain ⟨result, hresult, h⟩ := exists_of_bind_ok h
    have ha := ih hf hresult
    split at h
    · cases h
      exact ha
    · cases h
      exact ha
    · cases h
      exact ha
    · cases h
  | binary op left right ihl ihr =>
    obtain ⟨found, -, h⟩ := exists_of_bind_ok h
    obtain ⟨first, hfirst, h⟩ := exists_of_bind_ok h
    obtain ⟨second, hsecond, h⟩ := exists_of_bind_ok h
    cases h
    exact ⟨ihl hf.1 hfirst, ihr hf.2 hsecond⟩
  | string | awaiting | member | pattern | other => cases h

/-- Every name in an expression that is read from a text is a word of it. -/
theorem named_ofText {raw : String} (h : ofText raw = .ok expr) : expr.Named IsWord := by
  rw [ofText] at h
  split at h
  · next found hfound =>
    cases h
    rw [ofProgram] at hfound
    split at hfound
    · cases hfound
    · next form hprogram =>
      obtain ⟨results, hresults, hdrop⟩ := Option.map_eq_some_iff.mp hprogram
      have hm : some form ∈ results := by
        refine (List.dropWhile_suffix (fun result => result == some Form.string)).subset ?_
        rw [show List.dropWhile _ results = [some form] from hdrop]
        exact List.mem_singleton_self _
      exact named_ofForm (Formula.worded_of_program? hresults _ hm form rfl) hfound
    · cases hfound
  · cases h

end Expr

end CircuitScript
