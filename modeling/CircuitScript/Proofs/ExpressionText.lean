import CircuitScript.Expr.Reader
import CircuitScript.Proofs.CursorMoves
import CircuitScript.Proofs.NumeralReading
/-!
Expressions as they are written, with no more parentheses than their operators need, and the tokens
that such a text is made of. Equality is written as a single sign; doubling it gives the text of the
grammar, and touches no other operator.
-/
namespace CircuitScript

namespace BinaryOp

/-- How tight the operator binds its operands. -/
def precedence : BinaryOp → Nat
  | or => 1
  | and => 2
  | eq | ne => 3
  | lt | gt | le | ge => 4
  | add | sub => 5
  | mul | div => 6

/-- The operator in the grammar, where equality has two signs. -/
def mark : BinaryOp → String
  | eq => "=="
  | op => op.symbol

end BinaryOp

def UnaryOp.symbol : UnaryOp → String
  | not => "!"
  | neg => "-"

/-- A text, in parentheses if it needs them. -/
def wrapped (needs : Bool) (text : String) : String := if needs then "(" ++ text ++ ")" else text

namespace Expr

/-- How tight the outermost operator binds; what has none is tightest. -/
def precedence : Expr → Nat
  | binary op .. => op.precedence
  | unary .. => 7
  | literal _ | name _ => 8

/-- The expression with these signs for its operators. Operands group to the left, and the argument
of a unary operator is in parentheses unless it has no operator. -/
def written (sign : BinaryOp → String) : Expr → String
  | literal value => value.text
  | name signal => signal
  | unary op argument => op.symbol ++ wrapped (argument.precedence ≤ 7) (argument.written sign)
  | binary op left right _ =>
    wrapped (left.precedence < op.precedence) (left.written sign) ++ " " ++ sign op ++ " " ++
      wrapped (right.precedence ≤ op.precedence) (right.written sign)

/-- The expression as scripts write it. -/
def text (expr : Expr) : String := expr.written BinaryOp.symbol

/-- Words that do not name a signal in an expression: those that ECMAScript reserves everywhere, or
in modules. -/
def reservedWords : List String := Formula.Context.reservedWords ++ ["await", "let", "yield"]

/-- A letter or an underscore, then letters, digits and underscores, and no reserved word. -/
def isPlainName (signal : String) : Bool :=
  match signal.toList with
  | c :: more => (c.isAlpha || c == '_') && more.all (fun d => d.isAlphanum || d == '_') &&
      !reservedWords.contains signal
  | [] => false

/-- The expression has a text: no literal is negative, signals have plain names, and no node is
negated, which the language cannot write. -/
def Printable : Expr → Prop
  | literal (.int value) => 0 ≤ value
  | literal (.bool _) => True
  | name signal => isPlainName signal = true
  | unary _ argument => argument.Printable
  | binary _ left right negated => left.Printable ∧ right.Printable ∧ negated = false

def decidePrintable : (expr : Expr) → Decidable expr.Printable
  | literal (.int value) => inferInstanceAs (Decidable (0 ≤ value))
  | literal (.bool _) => inferInstanceAs (Decidable True)
  | name signal => inferInstanceAs (Decidable (isPlainName signal = true))
  | unary _ argument => decidePrintable argument
  | binary _ left right negated =>
    have := decidePrintable left
    have := decidePrintable right
    inferInstanceAs (Decidable (left.Printable ∧ right.Printable ∧ negated = false))

instance : DecidablePred Printable := decidePrintable

end Expr

namespace Formula

theorem forall_ascii {P : Char → Prop} (h : ∀ n < 128, P (Char.ofNat n)) {c : Char}
    (hc : c.toNat < 128) : P c := by
  have := h c.toNat hc
  rwa [Char.ofNat_toNat] at this

variable {c : Char} {cs rest : List Char} {newline : Bool}

theorem skipTrivia_cons (h : c ≠ '/') :
    skipTrivia newline (c :: rest) =
      if isLineEnd c then skipTrivia true rest
      else if isSpace c then skipTrivia newline rest
      else some (newline, c :: rest) := by
  rw [skipTrivia]
  · rintro _ ⟨⟩
    exact absurd rfl h
  · rintro _ ⟨⟩
    exact absurd rfl h

theorem skipTrivia_slash :
    skipTrivia newline ('/' :: ' ' :: rest) = some (newline, '/' :: ' ' :: rest) := by
  rw [skipTrivia]
  · rfl
  · rintro _ _ ⟨⟩
  · rintro _ _ ⟨⟩

theorem next?_blank : next? (' ' :: cs) = next? cs := by
  rw [next?, skipTrivia_cons (by decide), if_neg (by decide), if_pos (by decide)]
  rfl

theorem next?_nil : next? [] = some ⟨.stop, false, []⟩ := by
  rw [next?, skipTrivia]
  rfl

theorem next?_of_skipTrivia (h : skipTrivia false cs = some (newline, rest)) :
    next? cs = (token? rest).map fun found => ⟨found.1, newline, found.2⟩ := by
  rw [next?, h]
  cases h : token? rest <;> simp [h]

/-- At a character that is neither blank nor a slash, a token begins. -/
theorem next?_cons (hslash : c ≠ '/') (hline : isLineEnd c = false) (hspace : isSpace c = false) :
    next? (c :: rest) = (token? (c :: rest)).map fun found => ⟨found.1, false, found.2⟩ := by
  refine next?_of_skipTrivia ?_
  rw [skipTrivia_cons hslash, hline, hspace]
  rfl

/-- Characters that begin no other token than a mark. -/
def isMarkChar (c : Char) : Bool := "()+-*/<>=!&|".toList.contains c

theorem token?_mark (h : isMarkChar c = true) : token? (c :: rest) = mark? (c :: rest) := by
  have hclass : "()+-*/<>=!&|".toList.all (fun c => isDigitOf 10 c = false ∧ c ≠ '.' ∧ c ≠ '"' ∧
      c ≠ '\x27' ∧ isWordStart c = false ∧ c ≠ '\\' ∧ c ≠ '#') = true := by decide +kernel
  obtain ⟨hdigit, hpoint, hquote, hquote', hword, hescape, hsharp⟩ :=
    of_decide_eq_true (List.all_eq_true.mp hclass c (List.contains_iff_mem.mp h))
  simp [token?, hdigit, hpoint, hquote, hquote', hword, hescape, hsharp]

theorem next?_mark (op : BinaryOp) :
    next? (op.mark.toList ++ ' ' :: rest) = some ⟨.mark op.mark, false, ' ' :: rest⟩ := by
  cases op with
  | div =>
    change next? ('/' :: ' ' :: rest) = _
    rw [next?_of_skipTrivia skipTrivia_slash, token?_mark (by decide)]
    rfl
  | _ =>
    change next? (_ :: _) = _
    rw [next?_cons (by decide) (by decide) (by decide), token?_mark (by decide)]
    rfl

/-- A prefix operator is one character, since none follows that would make a longer mark. -/
theorem next?_sign (op : UnaryOp) (h : c = '(' ∨ c.isAlphanum = true ∨ c = '_') :
    next? (op.symbol.toList ++ c :: rest) = some ⟨.mark op.symbol, false, c :: rest⟩ := by
  have hne : c ≠ '=' ∧ c ≠ '-' := by
    rcases h with rfl | h | rfl
    · decide
    · constructor <;> (rintro rfl; cases h)
    · decide
  cases op with
  | not =>
    change next? ('!' :: c :: rest) = _
    rw [next?_cons (by decide) (by decide) (by decide), token?_mark (by decide)]
    simp [mark?, marks, UnaryOp.symbol, Ne.symm hne.1]
    rfl
  | neg =>
    change next? ('-' :: c :: rest) = _
    rw [next?_cons (by decide) (by decide) (by decide), token?_mark (by decide)]
    simp [mark?, marks, UnaryOp.symbol, Ne.symm hne.1, Ne.symm hne.2]
    rfl

theorem next?_open : next? ('(' :: cs) = some ⟨.mark "(", false, cs⟩ := by
  rw [next?_cons (by decide) (by decide) (by decide), token?_mark (by decide)]
  rfl

theorem next?_close : next? (')' :: cs) = some ⟨.mark ")", false, cs⟩ := by
  rw [next?_cons (by decide) (by decide) (by decide), token?_mark (by decide)]
  rfl

/-- What follows an operand: nothing, a blank or a closing parenthesis. -/
def EndsOperand (rest : List Char) : Prop := ∀ c ∈ rest.head?, c = ' ' ∨ c = ')'

theorem EndsOperand.forall {P : Char → Prop} (h : EndsOperand rest) (hblank : P ' ')
    (hclose : P ')') : ∀ c ∈ rest.head?, P c := by
  intro c hc
  rcases h c hc with rfl | rfl
  · exact hblank
  · exact hclose

theorem wordChars_cons {isPart : Char → Bool} {fuel : Nat} {more : List Char}
    (hpart : isPart c = true) (hplain : c ≠ '\\')
    (h : wordChars isWordPart fuel cs = some (more, false, rest)) :
    wordChars isPart (fuel + 1) (c :: cs) = some (c :: more, false, rest) := by
  rw [wordChars.eq_def]
  simp [hpart, hplain, h]

theorem wordChars_parts {fuel : Nat} (hparts : ∀ c ∈ cs, isWordPart c = true ∧ c ≠ '\\')
    (hrest : EndsOperand rest) (hfuel : cs.length < fuel) :
    wordChars isWordPart fuel (cs ++ rest) = some (cs, false, rest) := by
  induction cs generalizing fuel with
  | nil =>
    obtain ⟨fuel, rfl⟩ : ∃ more, fuel = more + 1 := ⟨fuel - 1, by simp at hfuel; omega⟩
    cases rest with
    | nil => rfl
    | cons c rest =>
      have hstop : isWordPart c = false ∧ c ≠ '\\' :=
        hrest.forall (P := fun c => isWordPart c = false ∧ c ≠ '\\') (by decide +kernel)
          (by decide +kernel) c rfl
      simp [wordChars, hstop.1, hstop.2]
  | cons c cs ih =>
    obtain ⟨fuel, rfl⟩ : ∃ more, fuel = more + 1 := ⟨fuel - 1, by simp at hfuel; omega⟩
    obtain ⟨⟨hpart, hplain⟩, hparts⟩ := List.forall_mem_cons.mp hparts
    exact wordChars_cons hpart hplain (ih hparts (by simpa using hfuel))

theorem toNat_lt_of_isAlphanum (h : (c.isAlphanum || c == '_') = true) : c.toNat < 128 := by
  have hrange := toNat_of_isWordChar (c := c) (by simp [Cursor.isWordChar, h])
  omega

theorem isWordPart_of_name (h : (c.isAlphanum || c == '_') = true) :
    isWordPart c = true ∧ c ≠ '\\' :=
  forall_ascii (P := fun c => (c.isAlphanum || c == '_') = true → isWordPart c = true ∧ c ≠ '\\')
    (by decide +kernel) (toNat_lt_of_isAlphanum h) h

/-- A name begins like a word, and like no other token. -/
theorem next?_name {more : List Char} (hc : (c.isAlpha || c == '_') = true)
    (hmore : more.all (fun d => d.isAlphanum || d == '_') = true) (hrest : EndsOperand rest) :
    next? (c :: more ++ rest) = some ⟨.word (String.ofList (c :: more)) false, false, rest⟩ := by
  have hname : (c.isAlphanum || c == '_') = true := by
    rw [Char.isAlphanum]
    grind
  obtain ⟨hstart, hdigit, hline, hspace, hslash, hpoint, hquote, hquote', hescape⟩ :=
    forall_ascii (P := fun c => (c.isAlpha || c == '_') = true →
      isWordStart c = true ∧ isDigitOf 10 c = false ∧ isLineEnd c = false ∧ isSpace c = false ∧
        c ≠ '/' ∧ c ≠ '.' ∧ c ≠ '"' ∧ c ≠ '\x27' ∧ c ≠ '\\')
      (by decide +kernel) (toNat_lt_of_isAlphanum hname) hc
  have hparts : wordChars isWordPart (c :: (more ++ rest)).length (more ++ rest) =
      some (more, false, rest) :=
    wordChars_parts (fun d hd => isWordPart_of_name (List.all_eq_true.mp hmore d hd)) hrest
      (by rw [List.length_cons, List.length_append]; omega)
  rw [List.cons_append, next?_cons hslash hline hspace]
  have hword : word? (c :: (more ++ rest)) = some (String.ofList (c :: more), false, rest) := by
    rw [word?, wordChars_cons hstart hescape hparts]
  simp [token?, hdigit, hpoint, hquote, hquote', hstart, hword]

namespace Numeral

theorem digitRun_cons {base : Nat} (h : cs.head? ≠ some '_') :
    digitRun base (c :: cs) =
      if isDigitOf base c then (c :: (digitRun base cs).1, (digitRun base cs).2)
      else ([], c :: cs) := by
  rw [digitRun]
  rintro next rest rfl
  exact h rfl

theorem digitRun_append (hdigits : ∀ c ∈ cs, isDigitOf 10 c = true ∧ c ≠ '_')
    (hrest : EndsOperand rest) : digitRun 10 (cs ++ rest) = (cs, rest) := by
  induction cs with
  | nil =>
    cases rest with
    | nil => rfl
    | cons c rest =>
      have hstop : isDigitOf 10 c = false := hrest.forall (P := fun c => isDigitOf 10 c = false)
        (by decide) (by decide) c rfl
      rw [List.nil_append, digitRun.eq_def]
      split <;> simp_all
  | cons c cs ih =>
    obtain ⟨⟨hdigit, -⟩, hdigits⟩ := List.forall_mem_cons.mp hdigits
    have hhead : (cs ++ rest).head? ≠ some '_' := by
      cases cs with
      | nil => exact fun h => hrest.forall (P := (· ≠ '_')) (by decide) (by decide) '_' h rfl
      | cons d cs => exact fun h => (hdigits d List.mem_cons_self).2 (Option.some.inj h)
    rw [List.cons_append, digitRun_cons hhead, if_pos hdigit, ih hdigits]

theorem isDigit_facts (h : c.isDigit = true) :
    isDigitOf 10 c = true ∧ c ≠ '_' ∧ (digit? c).getD 0 = c.toNat - '0'.toNat ∧
      isLineEnd c = false ∧ isSpace c = false ∧ c ≠ '/' :=
  forall_ascii (P := fun c => c.isDigit = true → isDigitOf 10 c = true ∧ c ≠ '_' ∧
      (digit? c).getD 0 = c.toNat - '0'.toNat ∧ isLineEnd c = false ∧ isSpace c = false ∧ c ≠ '/')
    (by decide +kernel) (toNat_lt_of_isAlphanum (by simp [Char.isAlphanum, h])) h

theorem digitsValue_eq (h : ∀ c ∈ cs, c.isDigit = true) (start : Nat) :
    cs.foldl (fun value c => 10 * value + (digit? c).getD 0) start =
      Nat.ofDigitChars 10 cs start := by
  induction cs generalizing start with
  | nil => rfl
  | cons c cs ih =>
    obtain ⟨hc, hcs⟩ := List.forall_mem_cons.mp h
    rw [List.foldl_cons, ih hcs, Nat.ofDigitChars_cons, (isDigit_facts hc).2.2.1]

theorem decimalAfter_end {whole : List Char} (hrest : EndsOperand rest) :
    decimalAfter whole rest = some (decimalValue whole [] 0, rest) := by
  have hends : endsNumber rest = true := by
    cases rest with
    | nil => rfl
    | cons c rest =>
      exact hrest.forall (P := fun c => (!(isWordStart c || c == '\\' || isDigitOf 10 c)) = true)
        (by decide +kernel) (by decide +kernel) c rfl
  have hexponent : optionalExponent rest = some (0, rest) := by
    cases rest with
    | nil => rfl
    | cons c rest => rcases hrest c rfl with rfl | rfl <;> rfl
  have hpoint : decimalAfter whole rest = decimalEnd whole [] rest := by
    cases rest with
    | nil => rfl
    | cons c rest => rcases hrest c rfl with rfl | rfl <;> rfl
  rw [hpoint, decimalEnd, hexponent]
  simp [finish, hends]

/-- A decimal is read back, up to where it ends. -/
theorem read_toDigits (n : Nat) (hrest : EndsOperand rest) :
    read (Nat.toDigits 10 n ++ rest) = some (float (.ofDecimal n 0), rest) := by
  have hdigits : ∀ c ∈ Nat.toDigits 10 n, c.isDigit = true := fun c hc =>
    Nat.isDigit_of_mem_toDigits (by decide) (by decide) hc
  have hvalue : decimalValue (Nat.toDigits 10 n) [] 0 = float (.ofDecimal n 0) := by
    rw [decimalValue, List.append_nil, digitsValue, digitsValue_eq hdigits,
      Nat.ofDigitChars_ten_toDigits]
    rfl
  rw [← hvalue, ← decimalAfter_end hrest]
  have hrun := digitRun_append (fun c hc =>
    ⟨(isDigit_facts (hdigits c hc)).1, (isDigit_facts (hdigits c hc)).2.1⟩) hrest
  by_cases hn : n = 0
  · subst hn
    cases rest with
    | nil => rfl
    | cons c rest => rcases hrest c rfl with rfl | rfl <;> rfl
  · obtain ⟨d, ds, hds⟩ := List.exists_cons_of_ne_nil (@Nat.toDigits_ne_nil n 10)
    have hzero : d ≠ '0' := by
      rintro rfl
      exact hn (CircuitScript.Numeral.head?_toDigits (by rw [hds]; rfl))
    have hpoint : d ≠ '.' := by
      rintro rfl
      have := hdigits '.' (by simp [hds])
      cases this
    rw [hds] at hrun ⊢
    rw [read.eq_def]
    split
    · simp_all
    · simp_all
    · rw [hrun]
      split
      · next hmark =>
        cases hmark
        exact absurd (hrest 'n' rfl) (by decide)
      · next hsplit =>
        cases hsplit
        rfl

end Numeral

theorem next?_toDigits (n : Nat) (hrest : EndsOperand rest) :
    next? (Nat.toDigits 10 n ++ rest) = some ⟨.numeral (.float (.ofDecimal n 0)), false, rest⟩ := by
  obtain ⟨d, ds, hds⟩ := List.exists_cons_of_ne_nil (@Nat.toDigits_ne_nil n 10)
  obtain ⟨hdigit, -, -, hline, hspace, hslash⟩ := Numeral.isDigit_facts (c := d)
    (Nat.isDigit_of_mem_toDigits (b := 10) (n := n) (by decide) (by decide) (by simp [hds]))
  have hread := Numeral.read_toDigits n hrest
  rw [hds, List.cons_append] at hread ⊢
  rw [next?_cons hslash hline hspace]
  simp [token?, hdigit, hread]

end Formula

theorem toInt_nonneg {value : Int32} (h : 0 ≤ value) : 0 ≤ value.toInt := by
  simpa using Int32.le_iff_toInt_le.mp h

theorem toList_decimal {value : Int32} (h : 0 ≤ value) :
    (decimal value).toList = Nat.toDigits 10 value.toInt.toNat := by
  obtain ⟨n, hn⟩ := Int.eq_ofNat_of_zero_le (toInt_nonneg h)
  rw [decimal, hn, Int.toNat_natCast]
  exact String.toList_ofList

theorem Binary64.toNat?_ofDecimal {n : Nat} (h : n < 2 ^ 31) :
    (Binary64.ofDecimal n 0).toNat? = some n := by
  by_cases hn : n = 0
  · subst hn
    decide +kernel
  · have hcount : digitCount n ≤ 10 :=
      (Nat.length_toDigits_le_iff (by decide) (by decide)).mpr (by omega)
    have hnear : Binary64.ofDecimal n 0 = Binary64.ofNat n := by
      rw [Binary64.ofDecimal, if_neg hn, if_neg (by omega), if_neg (by omega)]
      exact congrArg₂ nearest (Nat.mul_one n) rfl
    obtain ⟨mantissa, exponent, hvalue, hhalves⟩ := Numeral.isHalves_ofNat (n := n) (by omega)
    have hden := fraction_snd_pos mantissa exponent
    have hnum : (fraction mantissa exponent).1 = n * (fraction mantissa exponent).2 := by linarith
    rw [hnear, hvalue, toNat?]
    dsimp only
    rw [hnum, Nat.mul_mod_left, if_pos rfl, Nat.mul_div_cancel _ hden]

/-- A literal that has a text is the number that the text says. -/
theorem Expr.ofNumber_ofDecimal {value : Int32} (h : 0 ≤ value) :
    ofNumber (.ofDecimal value.toInt.toNat 0) = .ok (int value) := by
  have hnonneg := toInt_nonneg h
  have hlt : value.toInt.toNat < 2 ^ 31 := by
    have := value.toInt_lt
    omega
  have hsame : Int32.ofNat value.toInt.toNat = value := by
    apply Int32.toInt_inj.mp
    rw [Int32.toInt_ofNat_of_lt hlt, Int.toNat_of_nonneg hnonneg]
  rw [ofNumber, Binary64.toNat?_ofDecimal hlt]
  dsimp only
  rw [hsame]
  exact if_pos hlt

theorem Expr.exists_of_isPlainName {signal : String} (h : isPlainName signal = true) :
    ∃ c more, signal = String.ofList (c :: more) ∧ (c.isAlpha || c == '_') = true ∧
      more.all (fun d => d.isAlphanum || d == '_') = true ∧ signal ∉ reservedWords := by
  rw [isPlainName] at h
  split at h
  · next c more htext =>
    simp only [Bool.and_eq_true, Bool.not_eq_true', List.contains_eq_mem,
      decide_eq_false_iff_not] at h
    obtain ⟨⟨hc, hmore⟩, hfree⟩ := h
    exact ⟨c, more, by rw [← htext, String.ofList_toList], hc, hmore, hfree⟩
  · cases h

section Doubling

variable {cs tail : List Char} {previous : Option Char}

theorem doubleEquality_cons_of_ne {c : Char} (h : c ≠ '=') :
    doubleEquality previous (c :: tail) = c :: doubleEquality (some c) tail := by
  rw [doubleEquality]
  exact h

/-- A text goes over into another one, whatever stands around it. -/
def Doubles (cs result : List Char) : Prop :=
  ∀ previous tail, ∃ last, doubleEquality previous (cs ++ tail) = result ++ doubleEquality last tail

theorem Doubles.append {cs' result result' : List Char} (h : Doubles cs result)
    (h' : Doubles cs' result') : Doubles (cs ++ cs') (result ++ result') := by
  intro previous tail
  obtain ⟨middle, hm⟩ := h previous (cs' ++ tail)
  obtain ⟨last, hl⟩ := h' middle tail
  exact ⟨last, by rw [List.append_assoc, hm, hl, List.append_assoc]⟩

theorem doubles_of_notMem (h : '=' ∉ cs) : Doubles cs cs := by
  intro previous tail
  induction cs generalizing previous with
  | nil => exact ⟨previous, rfl⟩
  | cons c cs ih =>
    obtain ⟨hc, hcs⟩ := not_or.mp (mt List.mem_cons.mpr h)
    obtain ⟨last, hlast⟩ := ih hcs (some c)
    exact ⟨last, by rw [List.cons_append, doubleEquality_cons_of_ne (Ne.symm hc), hlast]; rfl⟩

/-- Between blanks only the sign of equality changes. -/
theorem doubles_symbol (op : BinaryOp) :
    Doubles (' ' :: op.symbol.toList ++ [' ']) (' ' :: op.mark.toList ++ [' ']) := by
  intro previous tail
  refine ⟨some ' ', ?_⟩
  cases op <;> simp [BinaryOp.symbol, BinaryOp.mark, doubleEquality, joinsEquality]

theorem doubles_wrapped (needs : Bool) {text text' : String}
    (h : Doubles text.toList text'.toList) :
    Doubles (wrapped needs text).toList (wrapped needs text').toList := by
  cases needs with
  | false => exact h
  | true =>
    have hopen : Doubles ['('] ['('] := doubles_of_notMem (by decide)
    have hclose : Doubles [')'] [')'] := doubles_of_notMem (by decide)
    simpa [wrapped] using (hopen.append h).append hclose

theorem Expr.doubles_written {expr : Expr} (h : expr.Printable) :
    Doubles (expr.written BinaryOp.symbol).toList (expr.written BinaryOp.mark).toList := by
  induction expr with
  | literal value =>
    refine doubles_of_notMem fun hmem => ?_
    cases value with
    | int value =>
      rw [Expr.written, Literal.text, toList_decimal h] at hmem
      exact absurd (Nat.isDigit_of_mem_toDigits (by decide) (by decide) hmem) (by decide)
    | bool flag => cases flag <;> exact absurd hmem (by decide)
  | name signal =>
    obtain ⟨c, more, rfl, hc, hmore, -⟩ := Expr.exists_of_isPlainName h
    refine doubles_of_notMem fun hmem => ?_
    rw [Expr.written, String.toList_ofList] at hmem
    rcases List.mem_cons.mp hmem with rfl | hmem
    · cases hc
    · cases List.all_eq_true.mp hmore _ hmem
  | unary op argument ih =>
    have hop : Doubles op.symbol.toList op.symbol.toList := by
      cases op <;> exact doubles_of_notMem (by decide)
    simpa only [Expr.written, String.toList_append] using hop.append (doubles_wrapped _ (ih h))
  | binary op left right negated ihl ihr =>
    have hall := ((doubles_wrapped (left.precedence < op.precedence) (ihl h.1)).append
      (doubles_symbol op)).append
      (doubles_wrapped (right.precedence ≤ op.precedence) (ihr h.2.1))
    simpa [Expr.written] using hall

end Doubling

end CircuitScript
