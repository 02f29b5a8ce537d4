import CircuitScript.Proofs.AssignmentWiring
import CircuitScript.Proofs.CursorMoves
/-!
An assignment never reads its own result. A program of a single chain with a single assignment is
laid out in one row, whatever the length of the expression; the last step of the row reaches the
tail and none of the inputs.
-/
namespace CircuitScript

variable {α β : Type} {text rest middle front word : List Char} {c stop : Char}

/-- A run ends before a character of another class. -/
theorem dropWhile_append_cons {p : Char → Bool} (hf : ∀ c ∈ front, p c = true)
    (hs : p stop = false) :
    (front ++ stop :: rest).dropWhile p = stop :: rest := by
  rw [List.dropWhile_append_of_pos hf, List.dropWhile_cons_of_neg (by simp [hs])]

theorem takeWhile_append_cons {p : Char → Bool} (hf : ∀ c ∈ front, p c = true)
    (hs : p stop = false) :
    (front ++ stop :: rest).takeWhile p = front := by
  rw [List.takeWhile_append_of_pos hf, List.takeWhile_cons_of_neg (by simp [hs]), List.append_nil]

namespace Scan

variable {Q : α → Prop} {p : Char → Bool}

/-- If the read of a text succeeds, its result has the property and the rest is left. -/
abbrev Reads (text : List Char) (scan : Scan α) (Q : α → Prop) (rest : List Char) : Prop :=
  Leads (·.rest = text) Q scan (·.rest = rest)

theorem reads_get : Reads text get (·.rest = text) text := .get

theorem reads_set {cursor : Cursor} : Reads text (set cursor) (fun _ => True) cursor.rest := by
  refine .of_ok ?_
  rintro start after a hc ⟨⟩
  exact ⟨trivial, rfl⟩

theorem reads_failHere {fault : String → SyntaxFault} : Reads text (failHere fault) Q rest :=
  reads_get.bind fun _ _ => .throw

theorem reads_skipBlanks : Reads text skipBlanks (fun _ => True) (text.dropWhile Text.isBlank) := by
  refine .of_ok ?_
  rintro cursor after a rfl ⟨⟩
  exact ⟨trivial, rfl⟩

theorem reads_skipSeparators : Reads text skipSeparators (fun _ => True)
    (text.dropWhile fun c => Text.isBlank c || c == ';') := by
  refine .of_ok ?_
  rintro cursor after a rfl ⟨⟩
  exact ⟨trivial, rfl⟩

theorem reads_takeWhile : Reads text (takeWhile p) (· = text.takeWhile p) (text.dropWhile p) := by
  refine .of_ok ?_
  rintro cursor after a rfl ⟨⟩
  exact ⟨rfl, rfl⟩

/-- The next character, behind some blanks, is taken if it is one of a set. -/
theorem reads_eatOne_of_mem {set : List Char} (h : text.dropWhile Text.isBlank = c :: rest)
    (hm : c ∈ set) : Reads text (eatOne set) (· = some c) rest := by
  refine reads_skipBlanks.bind fun _ _ => reads_get.bind fun cursor hc => ?_
  simp only [hc, h, List.contains_iff_mem.mpr hm, if_true]
  exact reads_set.bind fun _ _ => .pure rfl

theorem reads_eatOne_of_not_mem {set : List Char} (h : text.dropWhile Text.isBlank = c :: rest)
    (hm : c ∉ set) : Reads text (eatOne set) (· = none) (c :: rest) := by
  refine reads_skipBlanks.bind fun _ _ => ?_
  rw [h]
  refine reads_get.bind fun cursor hc => ?_
  rw [hc]
  dsimp only
  rw [if_neg (by simpa using hm)]
  exact .pure rfl

theorem reads_eat (h : text.dropWhile Text.isBlank = c :: rest) :
    Reads text (eat c) (· = true) rest :=
  (reads_eatOne_of_mem h List.mem_cons_self).bind fun _ hfound => .pure (by rw [hfound]; rfl)

theorem reads_eat_of_ne {sought : Char} (h : text.dropWhile Text.isBlank = c :: rest)
    (hne : c ≠ sought) : Reads text (eat sought) (· = false) (c :: rest) :=
  (reads_eatOne_of_not_mem h (by simpa using hne)).bind fun _ hfound => .pure (by rw [hfound]; rfl)

theorem reads_expect (h : text.dropWhile Text.isBlank = c :: rest) :
    Reads text (expect c) (fun _ => True) rest := by
  refine (reads_eat h).bind fun found hfound => ?_
  rw [hfound]
  exact .pure trivial

theorem reads_expectOne {set : List Char} (h : text.dropWhile Text.isBlank = c :: rest)
    (hm : c ∈ set) : Reads text (expectOne set) (· = c) rest := by
  refine (reads_eatOne_of_mem h hm).bind fun found hfound => ?_
  rw [hfound]
  exact .pure rfl

/-- A word ends before a character that is none of a word. -/
theorem reads_name (h : text.dropWhile Text.isBlank = word ++ stop :: rest)
    (hw : ∀ c ∈ word, Cursor.isWordChar c = true) (hs : Cursor.isWordChar stop = false) :
    Reads text name (· = String.ofList word) (stop :: rest) := by
  have hraw : Reads text rawWord (·.1 = word) (stop :: rest) := by
    refine reads_skipBlanks.bind fun _ _ => reads_get.bind fun cursor _ => ?_
    rw [h]
    refine (@dropWhile_append_cons rest word stop _ hw hs ▸ reads_takeWhile).bind
      fun chars hchars => ?_
    rw [takeWhile_append_cons hw hs] at hchars
    dsimp only
    split
    · exact .bind (Q := fun _ => False) (@reads_failHere _ _ (stop :: rest) _ _) fun _ hf => hf.elim
    · exact .pure hchars
  refine hraw.bind fun result hresult => ?_
  dsimp only
  split
  · exact .throw
  · exact .pure (congrArg String.ofList hresult)

/-- The text of an expression, without the blanks around it. -/
theorem reads_expression {logic : Bool} :
    Reads text (expression logic)
      (·.1 = String.ofList (Text.trimEnd
        ((text.dropWhile Text.isBlank).takeWhile (Cursor.isExpressionChar logic))))
      ((text.dropWhile Text.isBlank).dropWhile (Cursor.isExpressionChar logic)) := by
  refine reads_skipBlanks.bind fun _ _ => reads_get.bind fun cursor _ => ?_
  refine reads_takeWhile.bind fun chars hchars => ?_
  dsimp only
  split
  · exact .bind (Q := fun _ => False) (@reads_failHere _ _ text _ _) fun _ hf => hf.elim
  · exact .pure (by rw [hchars])

end Scan

/-- A reading with some text ahead of it, some blocks open and some constructs finished. -/
structure Reading.At (text : List Char) (blocks : List OpenBlock)
    (script : Script) (reading : Reading) : Prop where
  text : reading.cursor.rest = text
  blocks : reading.blocks = blocks
  script : reading.script = script

namespace Parser

variable {blocks outer : List OpenBlock} {block : OpenBlock} {script : Script} {fuel : Nat}
  {J K : Unit → Reading → Prop} {place : Location}

theorem leads_scan {read : Scan α} {Q : α → Prop} (h : Scan.Reads text read Q rest) :
    Leads (Reading.At text blocks script) Q (scan read) (Reading.At rest blocks script) := by
  refine .of_ok fun {reading after a} hi hrun => ?_
  obtain ⟨cursor, hread, rfl⟩ := exists_of_scan hrun
  obtain ⟨hq, hrest⟩ := h.ok hi.text hread
  exact ⟨hq, hrest, hi.blocks, hi.script⟩

/-- A chain is opened at the top. -/
theorem ensures_chain (h : text.dropWhile Text.isBlank = '\x7b' :: rest) :
    Ensures (Reading.At text [] script) (statement "chain" place)
      fun _ => Reading.At rest [⟨.chain, script.scope, []⟩] script := by
  refine .bind Leads.get fun found => .of_fact fun hfound => ?_
  have hcontext : found.context = .script := by
    rw [Reading.context, hfound.blocks]
  dsimp only
  rw [hcontext]
  refine .bind Leads.get fun _ => .of_fact fun _ => ?_
  dsimp only
  rw [if_pos (by decide)]
  refine .bind (leads_scan (Scan.reads_expect h)) fun _ => .of_fact fun _ =>
    ensures_modify fun reading hr => ?_
  have hscope : reading.scope = script.scope := by
    rw [Reading.scope, hr.blocks, hr.script]
  exact ⟨hr.text, by rw [hscope, hr.blocks], hr.script⟩

/-- An assignment joins the block in which it stands. -/
theorem ensures_assignment {name : String} (h : text.dropWhile Text.isBlank = '=' :: middle) :
    Ensures (Reading.At text (block :: outer) script) (assign name) fun _ reading => ∃ expr node,
      Expr.ofText (String.ofList (Text.trimEnd
        ((middle.dropWhile Text.isBlank).takeWhile (Cursor.isExpressionChar false)))) = .ok expr ∧
      assignment (block.scope.resolve name) expr block.scope = .ok node ∧
      reading.At ((middle.dropWhile Text.isBlank).dropWhile (Cursor.isExpressionChar false))
        ({ block with body := block.body ++ [node] } :: outer) script := by
  have hscope : ∀ {found : Reading} {text : List Char}, found.At text (block :: outer) script →
      found.scope = block.scope := by
    intro found text hfound
    rw [Reading.scope, hfound.blocks]
  have hoperator : Ensures (Reading.At text (block :: outer) script) assignOperator
      fun compound reading => compound = none ∧ reading.At middle (block :: outer) script := by
    refine .bind (leads_scan (Scan.reads_expectOne h (by decide))) fun c => .of_fact fun hc => ?_
    rw [hc]
    exact .pure fun reading hr => ⟨rfl, hr⟩
  refine .bind Leads.get fun found => .of_fact fun hfound => ?_
  refine .bind hoperator fun compound => .of_fact fun hcompound => ?_
  subst hcompound
  refine .bind (leads_scan Scan.reads_expression) fun read => .of_fact fun hread => ?_
  refine .bind keeps_located fun expr => .of_fact fun hexpr => ?_
  refine .bind Leads.get fun later => .of_fact fun hlater => ?_
  refine .bind keeps_located fun node => .of_fact fun hnode => ensures_modify fun reading hr => ?_
  rw [hscope hfound, hscope hlater] at hnode
  refine ⟨expr, node, hread ▸ hexpr, hnode, ?_⟩
  rw [Reading.push, hr.blocks]
  exact ⟨hr.text, rfl, hr.script⟩

theorem ensures_word {name : String}
    (h : text.dropWhile (fun c => Text.isBlank c || c == ';') = name.toList ++ stop :: rest)
    (hne : name ≠ "") (hw : ∀ c ∈ name.toList, Cursor.isWordChar c = true)
    (hs : Cursor.isWordChar stop = false)
    (hstatement : ∀ place, Ensures (Reading.At (stop :: rest) blocks script)
      (statement name place) J)
    (hmore : Ensures (J ()) (statements fuel) K) :
    Ensures (Reading.At text blocks script) (statements (fuel + 1)) K := by
  obtain ⟨c, tail, hname⟩ := List.exists_cons_of_ne_nil (mt String.toList_eq_nil_iff.mp hne)
  have hc : Cursor.isWordChar c = true := hw c (hname ▸ List.mem_cons_self)
  have hblank :
      (name.toList ++ stop :: rest).dropWhile Text.isBlank = name.toList ++ stop :: rest := by
    rw [hname, List.cons_append, List.dropWhile_cons_of_neg (by simp [isBlank_of_isWordChar hc])]
  have hfirst :
      (name.toList ++ stop :: rest).dropWhile Text.isBlank = c :: (tail ++ stop :: rest) := by
    rw [hblank, hname, List.cons_append]
  have hbrace : c ≠ '\x7d' := by
    rintro rfl
    exact absurd hc (by decide)
  refine .bind (leads_scan Scan.reads_skipSeparators) fun _ => .of_fact fun _ => ?_
  rw [h]
  refine .bind Leads.get fun found => .of_fact fun hfound => ?_
  have hmoreText : found.cursor.atEnd = false := by
    rw [Cursor.atEnd, hfound.text, hname]
    rfl
  dsimp only
  rw [hmoreText]
  refine .bind (leads_scan (Scan.reads_eat_of_ne hfirst hbrace))
    fun closes => .of_fact fun hc => ?_
  rw [hc, ← hfirst, hblank]
  refine .bind (leads_scan (Scan.reads_name hblank hw hs)) fun found => .of_fact fun hfound => ?_
  rw [hfound, String.ofList_toList]
  exact .bind (hstatement _) fun _ => hmore

theorem ensures_brace
    (h : text.dropWhile (fun c => Text.isBlank c || c == ';') = '\x7d' :: rest)
    (hmore : Ensures (Reading.At rest [] { script with body := script.body ++ [block.close] })
      (statements fuel) K) :
    Ensures (Reading.At text [block] script) (statements (fuel + 1)) K := by
  refine .bind (leads_scan Scan.reads_skipSeparators) fun _ => .of_fact fun _ => ?_
  rw [h]
  refine .bind Leads.get fun found => .of_fact fun hfound => ?_
  have hmoreText : found.cursor.atEnd = false := by
    rw [Cursor.atEnd, hfound.text]
    rfl
  dsimp only
  rw [hmoreText]
  refine .bind (leads_scan (@Scan.reads_eat _ rest '\x7d' rfl))
    fun closes => .of_fact fun hc => ?_
  rw [hc]
  refine .bind ?_ fun _ => hmore
  refine .bind Leads.get fun found => .of_fact fun hopen => ?_
  rw [hopen.blocks]
  refine Ensures.of_ok ?_
  rintro reading after _ hr ⟨⟩
  exact ⟨hopen.text, rfl, by rw [← hopen.script]; rfl⟩

theorem ensures_end (h : text.dropWhile (fun c => Text.isBlank c || c == ';') = []) :
    Ensures (Reading.At text blocks script) (statements fuel)
      fun _ reading => reading.blocks = blocks ∧ reading.script = script := by
  cases fuel with
  | zero => exact .pure fun reading hr => ⟨hr.blocks, hr.script⟩
  | succ fuel =>
    refine .bind (leads_scan Scan.reads_skipSeparators) fun _ => .of_fact fun _ => ?_
    rw [h]
    refine .bind Leads.get fun found => .of_fact fun hfound => ?_
    have hnone : found.cursor.atEnd = true := by
      rw [Cursor.atEnd, hfound.text]
      rfl
    dsimp only
    rw [hnone]
    exact .pure fun reading hr => ⟨hr.blocks, hr.script⟩

end Parser

namespace Script

variable {target value : String} {script : Script}

/-- The words that begin statements of their own. -/
def keywords : List String := ["chain", "parallel", "series", "if", "while", "alias"]

/-- The text of a chain with a single assignment. -/
def soleAssignment (target value : String) : String :=
  "chain \x7b " ++ target ++ " = " ++ value ++ " \x7d"

/-- A name that can be assigned to. -/
def IsTarget (target : String) : Prop :=
  target ≠ "" ∧ target ∉ keywords ∧ ∀ c ∈ target.toList, Cursor.isWordChar c = true

/-- An expression of arithmetic on one line. -/
def IsValue (value : String) : Prop :=
  ∀ c ∈ value.toList, Cursor.isExpressionChar false c = true

theorem statement_target {place : Location} (ht : target ∉ keywords) {block : OpenBlock}
    {text : List Char} {J : Unit → Reading → Prop} (hb : block.opening = .chain)
    (h : Ensures (Reading.At text [block] script) (Parser.assign target) J) :
    Ensures (Reading.At text [block] script) (Parser.statement target place) J := by
  refine .bind Leads.get fun found => .of_fact fun hfound => ?_
  have hcontext : found.context = .chain := by
    rw [Reading.context, hfound.blocks]
    dsimp only
    rw [hb]
    rfl
  dsimp only
  rw [hcontext]
  split
  case h_7 => exact h
  all_goals exact absurd (by decide) ht

theorem toList_soleAssignment : (soleAssignment target value).toList =
    "chain".toList ++ ' ' :: '\x7b' :: ' ' :: (target.toList ++ ' ' :: '=' :: ' ' ::
      (value.toList ++ [' ', '\x7d'])) := by
  simp [soleAssignment]

/-- The expression ends at the brace, and the blanks around it do not count. -/
theorem value_span (hv : IsValue value) :
    let text := (' ' :: (value.toList ++ [' ', '\x7d'])).dropWhile Text.isBlank
    Text.trimEnd (text.takeWhile (Cursor.isExpressionChar false)) = Text.trim value.toList ∧
      text.dropWhile (Cursor.isExpressionChar false) = ['\x7d'] := by
  have hblank : (' ' :: (value.toList ++ [' ', '\x7d'])).dropWhile Text.isBlank =
      (value.toList ++ [' ']).dropWhile Text.isBlank ++ ['\x7d'] := by
    rw [List.dropWhile_cons_of_pos (by decide), List.append_cons, List.dropWhile_append]
    split
    · next hnone =>
      rw [List.isEmpty_iff.mp hnone]
      rfl
    · rfl
  have hall : ∀ c ∈ (value.toList ++ [' ']).dropWhile Text.isBlank,
      Cursor.isExpressionChar false c = true := by
    intro c hc
    rcases List.mem_append.mp ((List.dropWhile_sublist _).subset hc) with hc | hc
    · exact hv c hc
    · rw [List.mem_singleton.mp hc]
      rfl
  dsimp only
  rw [hblank, dropWhile_append_cons hall (by decide), takeWhile_append_cons hall (by decide)]
  refine ⟨?_, rfl⟩
  rw [Text.trim, List.dropWhile_append]
  split
  · next hnone =>
    rw [List.isEmpty_iff.mp hnone]
    rfl
  · rw [Text.trimEnd, List.reverse_append]
    rfl

theorem dropWhile_target (ht : IsTarget target) {rest : List Char} :
    (' ' :: (target.toList ++ rest)).dropWhile (fun c => Text.isBlank c || c == ';') =
      target.toList ++ rest := by
  obtain ⟨hne, -, hword⟩ := ht
  obtain ⟨c, tail, hc⟩ := List.exists_cons_of_ne_nil (mt String.toList_eq_nil_iff.mp hne)
  rw [hc] at hword ⊢
  have hfirst := hword c List.mem_cons_self
  have hsemicolon : c ≠ ';' := by
    rintro rfl
    exact absurd hfirst (by decide)
  rw [List.dropWhile_cons_of_pos (by decide), List.cons_append,
    List.dropWhile_cons_of_neg (by simp [isBlank_of_isWordChar hfirst, hsemicolon])]

theorem ensures_soleAssignment (ht : IsTarget target) (hv : IsValue value) (fuel : Nat) :
    Ensures (Reading.At (soleAssignment target value).toList [] ⟨.root, []⟩)
      (Parser.statements (fuel + 3)) fun _ reading => ∃ expr node,
        Expr.ofText (String.ofList (Text.trim value.toList)) = .ok expr ∧
        assignment (Scope.root.resolve target) expr .root = .ok node ∧
        reading.blocks = [] ∧ reading.script.body = [.chain .root [node]] := by
  obtain ⟨htrim, hbrace⟩ := value_span hv
  have hassign := fun place => @statement_target target ⟨.root, []⟩ place ht.2.1 ⟨.chain, .root, []⟩
    (' ' :: '=' :: ' ' :: (value.toList ++ [' ', '\x7d'])) _ rfl (Parser.ensures_assignment rfl)
  rw [htrim, hbrace] at hassign
  rw [toList_soleAssignment]
  refine Parser.ensures_word rfl (by decide) (List.all_eq_true.mp (by decide)) (by decide)
    (fun _ => Parser.ensures_chain rfl) ?_
  refine Parser.ensures_word (dropWhile_target ht) ht.1 ht.2.2 (by decide) hassign (.of_ok ?_)
  rintro reading after _ ⟨expr, node, hexpr, hnode, hr⟩ hrun
  obtain ⟨hblocks, hscript⟩ := (Parser.ensures_brace rfl (Parser.ensures_end rfl)).ok hr hrun
  exact ⟨expr, node, hexpr, hnode, hblocks, hscript ▸ rfl⟩

/-- What such a text is read as. -/
theorem body_soleAssignment (ht : IsTarget target) (hv : IsValue value)
    (h : parse (soleAssignment target value) = .ok script) : ∃ expr node,
      Expr.ofText (String.ofList (Text.trim value.toList)) = .ok expr ∧
      assignment (Scope.root.resolve target) expr .root = .ok node ∧
      script.body = [.chain .root [node]] := by
  obtain ⟨⟨_, reading⟩, hrun, h⟩ := exists_of_bind_ok h
  obtain ⟨fuel, hfuel⟩ : ∃ fuel, (soleAssignment target value).length + 1 = fuel + 3 :=
    ⟨_, (Nat.sub_add_cancel (by simp [← String.length_toList, toList_soleAssignment])).symm⟩
  rw [hfuel] at hrun
  obtain ⟨expr, node, hexpr, hnode, hblocks, hbody⟩ :=
    (ensures_soleAssignment ht hv fuel).ok ⟨rfl, rfl, rfl⟩ hrun
  dsimp only at h
  rw [hblocks] at h
  cases h
  exact ⟨expr, node, hexpr, hnode, hbody⟩

/-- An assignment forwards every signal beside a series that computes its value, and unless it
scales the target, the old value is cancelled. -/
theorem exists_members {raw : String} {expr : Expr} {scope : Scope} {node : Node}
    (he : Expr.ofText raw = .ok expr) (h : assignment target expr scope = .ok node) :
    ∃ inner steps others, steps ≠ [] ∧
      (others = [] ∨ others = [⟨.signal target, .mul, .constant (-1), target⟩]) ∧
      node = .parallel scope
        (.step .passthrough :: .series inner (steps.map .step) :: others.map .step) := by
  have hnamed : expr.Named fun _ => True := (Expr.named_ofText he).mono fun _ _ => trivial
  have hsimple : (expr.simplify scope.aliases .arithmetic).Named fun _ => True :=
    Expr.named_simplify hnamed fun _ _ _ => trivial
  rw [assignment] at h
  split at h
  · next steps inner hrun =>
    cases h
    obtain ⟨⟨hne, -⟩, -⟩ := (Expr.keeps_steps (fun _ _ => trivial) hsimple trivial).ok
      (fun _ _ _ => trivial) (outcome_eq_ok_iff.mpr hrun)
    rcases assignmentBody_cases target steps inner with ⟨step, k, -, -, hbody⟩ | hbody
    · exact ⟨inner, [⟨.signal target, .mul, .constant (k - 1), target⟩], [], by simp, .inl rfl,
        congrArg _ hbody⟩
    · exact ⟨inner, steps, _, hne, .inr rfl, congrArg _ hbody⟩
  · cases h

open Layout

theorem exists_draft {outer middle inner : Scope} {first : Step} {steps others : List Step}
    (hbody : script.body = [soleRow outer middle inner first steps others]) :
    ∃ pass series rest tail headed, script.draft.1 = [tail] ∧ headed.blueprint.combinators = [] ∧
      series.length = steps.length ∧
      Laid 0 series.dropLast
        (first.condition :: (steps.map Step.condition ++ others.map Step.condition))
        (pass :: (series ++ rest)) headed script.draft.2 ∧
      script.draft.2.blueprint.isRelay tail = true ∧
      ∀ id ∈ pass :: (series.getLast?.toList ++ rest),
        script.draft.2.blueprint.Linked .red ⟨tail, .input⟩ ⟨id, .output⟩ := by
  have hlies : (Frame.outermost (startBelow Draft.empty.blueprint
      (soleRow outer middle inner first steps others))).Lies 0 5 4 :=
    ⟨⟨rfl, rfl⟩, rfl, Nat.le_refl 5, Nat.le_refl 5⟩
  obtain ⟨pass, series, rest, tail, headed, final, hrun, hnone, hlength, hlaid, htail, hlinked⟩ :=
    @soleRow_laid Draft.empty _ 1 outer middle inner first steps others hlies rfl grounded_empty rfl
  have hdraft : script.draft = ([tail], final) := by
    rw [draft, hbody, run_lowerAll_cons]
    dsimp only
    rw [show ({ Draft.empty with grown := 0, poles := [] } : Draft) = Draft.empty from rfl, hrun]
    rfl
  rw [hdraft]
  exact ⟨pass, series, rest, tail, headed, rfl, hnone, hlength, hlaid, htail, hlinked⟩

/-- What an assignment puts out is read by none of its own combinators. A chain with a single
assignment forwards every signal beside a series that computes the value, and unless it scales the
target, the old value is cancelled. Whatever the length of the series, its last step is on no
network with an input of any combinator, but on that of the tail; and all combinators read the head.
-/
theorem assignment_feeds_forward (ht : IsTarget target) (hv : IsValue value)
    (h : parse (soleAssignment target value) = .ok script) :
    ∃ expr inner steps others pass series last rest tail,
      Expr.ofText (String.ofList (Text.trim value.toList)) = .ok expr ∧
      assignment (Scope.root.resolve target) expr .root = .ok (.parallel .root
        (.step .passthrough :: .series inner (steps.map .step) :: others.map .step)) ∧
      (others = [] ∨ others = [⟨.signal (Scope.root.resolve target), .mul, .constant (-1),
        Scope.root.resolve target⟩]) ∧
      script.body = [soleRow .root .root inner .passthrough steps others] ∧
      script.lower.blueprint.combinators = pass :: (series ++ rest) ∧
      script.lower.blueprint.Holds pass Step.passthrough.condition ∧
      List.Forall₂ script.lower.blueprint.Holds series (steps.map Step.condition) ∧
      List.Forall₂ script.lower.blueprint.Holds rest (others.map Step.condition) ∧
      series.getLast? = some last ∧ script.lower.outputs = [tail] ∧
      script.lower.blueprint.isRelay 0 = true ∧ script.lower.blueprint.isRelay tail = true ∧
      FeedsForward script.lower.blueprint (pass :: (series ++ rest)) 0 last tail := by
  obtain ⟨expr, node, hexpr, hnode, hbody⟩ := body_soleAssignment ht hv h
  obtain ⟨inner, steps, others, hne, hothers, rfl⟩ := exists_members hexpr hnode
  obtain ⟨pass, series, rest, tail, headed, houtputs, hnone, hlength, hlaid, htail, hlinked⟩ :=
    exists_draft hbody
  have hcombinators : script.draft.2.blueprint.combinators = pass :: (series ++ rest) := by
    rw [hlaid.combinators, hnone, List.nil_append]
  have hnodup : (pass :: (series ++ rest)).Nodup := by
    rw [← hcombinators]
    exact nodup_combinators script
  have hseries : series ≠ [] := by
    rintro rfl
    exact hne (List.length_eq_zero_iff.mp hlength.symm)
  obtain ⟨last, hlast⟩ := Option.isSome_iff_exists.mp (List.getLast?_isSome.mpr hseries)
  obtain ⟨before, rfl⟩ := List.getLast?_eq_some_iff.mp hlast
  have hoff : last ∉ before := by
    have hsub : (before ++ [last]).Nodup := ((List.nodup_cons.mp hnodup).2).of_append_left
    exact fun hm => (List.nodup_append.mp hsub).2.2 last hm last (by simp) rfl
  have hforward :
      FeedsForward script.draft.2.blueprint (pass :: ((before ++ [last]) ++ rest)) 0 last tail := by
    refine hlaid.feedsForward (by simp) (by rwa [List.dropLast_concat]) (hlinked last ?_)
    simp [hlast]
  have hholds := hlaid.holds
  rw [List.forall₂_cons] at hholds
  have hfirst := List.forall₂_take_append _ _ _ hholds.2
  have hothers' := List.forall₂_drop_append _ _ _ hholds.2
  rw [List.length_map, ← hlength, List.take_left] at hfirst
  rw [List.length_map, ← hlength, List.drop_left] at hothers'
  exact ⟨expr, inner, steps, others, pass, _, last, rest, tail, hexpr, hnode, hothers, hbody,
    hcombinators, hholds.1, hfirst, hothers', hlast, houtputs, hlaid.sorted.relay, htail, hforward⟩

/-- A value that reads its own target, in a row that is too long for a single wire. -/
def longValue : String := "a * b + c * d - e / f + x"

theorem assignment_feeds_forward_longValue :
    ∃ script, parse (soleAssignment "x" longValue) = .ok script ∧ script.lower.blueprint.size = 12 ∧
      ∃ pass series last rest tail, script.lower.blueprint.combinators = pass :: (series ++ rest) ∧
        series.getLast? = some last ∧ script.lower.outputs = [tail] ∧
        FeedsForward script.lower.blueprint (pass :: (series ++ rest)) 0 last tail := by
  have hread : ∃ script, parse (soleAssignment "x" longValue) = .ok script ∧
      script.lower.blueprint.size = 12 := exists_parse (by decide +kernel)
  have htarget : IsTarget "x" := ⟨by decide, by decide, List.all_eq_true.mp (by decide +kernel)⟩
  have hvalue : IsValue longValue := List.all_eq_true.mp (by decide +kernel)
  obtain ⟨script, hparse, hsize⟩ := hread
  obtain ⟨expr, inner, steps, others, pass, series, last, rest, tail, -, -, -, -, hcombinators, -,
    -, -, hlast, houtputs, -, -, hforward⟩ := assignment_feeds_forward htarget hvalue hparse
  exact ⟨script, hparse, hsize, pass, series, last, rest, tail, hcombinators, hlast, houtputs,
    hforward⟩

end Script

end CircuitScript
