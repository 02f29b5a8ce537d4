import CircuitScript.Proofs.ConstructShape
import CircuitScript.Script.Parser
/-!
The shape of programs. Whatever text is accepted, chains stand at the top, parallel blocks in chains
and series in parallel blocks; all else are conditionals, single steps and assignments, and every
signal is a name that was read or a scratch signal.
-/
namespace CircuitScript

variable {α β : Type} {P : String → Prop}

/-- A property of every name that can get into a program. -/
structure NameRule (P : String → Prop) : Prop where
  word : ∀ chars, chars ≠ [] → (∀ c ∈ chars, Cursor.isWordChar c = true) →
    Word.number? chars = none → P (String.ofList chars)
  formula : ∀ text, Formula.IsWord text → P text
  scratch : ∀ name ∈ scratchSignals, P name
  each : P each

/-- If nothing is asked of names, every program keeps the rule. -/
theorem nameRule_true : NameRule fun _ => True :=
  ⟨fun _ _ _ _ => trivial, fun _ _ => trivial, fun _ _ => trivial, trivial⟩

/-- A construct that may stand in a context. -/
inductive Node.Shaped (P : String → Prop) : Context → Node → Prop
  | step {context : Context} {step : Step} (hc : context.takesSteps = true) (h : step.Named P) :
      Shaped P context (.step step)
  | assignment {context : Context} {node : Node} (hc : context.takesSteps = false)
      (h : node.IsAssignment P) : Shaped P context node
  | conditional {context : Context} {loops : Bool} {scope : Scope} {test : Node} {out : String}
      {body : List Node} (ho : P out) (ht : test.IsTest P out)
      (h : ∀ node ∈ body, Shaped P (.conditional loops) node) :
      Shaped P context (.conditional loops scope test out body)
  | chain {scope : Scope} {body : List Node} (h : ∀ node ∈ body, Shaped P .chain node) :
      Shaped P .script (.chain scope body)
  | parallel {scope : Scope} {body : List Node} (h : ∀ node ∈ body, Shaped P .parallel node) :
      Shaped P .chain (.parallel scope body)
  | series {scope : Scope} {body : List Node} (h : ∀ node ∈ body, Shaped P .series node) :
      Shaped P .parallel (.series scope body)

namespace Scan

variable {Q : α → Prop}

/-- The characters of a word. -/
def IsRaw (chars : List Char) : Prop := chars ≠ [] ∧ ∀ c ∈ chars, Cursor.isWordChar c = true

theorem gives_takeWhile {p : Char → Bool} :
    Gives (fun chars => ∀ c ∈ chars, p c = true) (takeWhile p) := by
  refine .of_ok ?_
  rintro cursor after chars - ⟨⟩
  exact ⟨List.all_eq_true.mp List.all_takeWhile, trivial⟩

theorem gives_failHere {fault : String → SyntaxFault} : Gives Q (failHere fault : Scan α) :=
  .andThen fun _ => .throw

/-- A word is not empty, since that is an error. -/
theorem gives_rawWord : Gives (fun result => IsRaw result.1) rawWord := by
  refine .andThen fun _ => .andThen fun place => .bind gives_takeWhile fun word hword => ?_
  dsimp only
  split
  · exact .bind (Q := fun _ => False) gives_failHere fun _ h => h.elim
  · next hne => exact .pure ⟨fun h => hne (List.isEmpty_iff.mpr h), hword⟩

theorem gives_name (hr : NameRule P) : Gives P name := by
  refine .bind gives_rawWord fun ⟨chars, place⟩ hraw => ?_
  dsimp only
  split
  · exact .throw
  · next hnone => exact .pure (hr.word chars hraw.1 hraw.2 hnone)

theorem gives_word (hr : NameRule P) :
    Gives (fun word => ∀ text, word = .name text → P text) word := by
  refine .bind gives_rawWord fun ⟨chars, place⟩ hraw => ?_
  dsimp only
  split
  · refine .pure fun text h => ?_
    cases h
  · next hnone =>
    refine .pure fun text h => ?_
    cases h
    exact hr.word chars hraw.1 hraw.2 hnone

end Scan

/-- The context inside the innermost of some open blocks. -/
def contextOf : List OpenBlock → Context
  | [] => .script
  | block :: _ => block.opening.context

/-- A block may be opened in a context. -/
def Opening.Fits (P : String → Prop) (context : Context) : Opening → Prop
  | .chain => context = .script
  | .parallel => context = .chain
  | .series => context = .parallel
  | .conditional _ test out => P out ∧ test.IsTest P out

/-- Open blocks stand where they may, and so do their members. -/
def BlocksFit (P : String → Prop) : List OpenBlock → Prop
  | [] => True
  | block :: outer => block.opening.Fits P (contextOf outer) ∧ block.scope.Named P ∧
    (∀ node ∈ block.body, node.Shaped P block.opening.context) ∧ BlocksFit P outer

/-- A block that may stand where it was opened may stand there once it is closed. -/
theorem shaped_close {block : OpenBlock} {context : Context} (ho : block.opening.Fits P context)
    (h : ∀ node ∈ block.body, node.Shaped P block.opening.context) :
    block.close.Shaped P context := by
  obtain ⟨opening, scope, body⟩ := block
  cases opening with
  | chain =>
    cases ho
    exact .chain h
  | parallel =>
    cases ho
    exact .parallel h
  | series =>
    cases ho
    exact .series h
  | conditional loops test out => exact .conditional ho.1 ho.2 h

namespace Reading

variable {reading : Reading} {context : Context} {scope : Scope} {node : Node}

/-- What was read so far has the shape of a program. -/
structure Fits (P : String → Prop) (reading : Reading) : Prop where
  scope : reading.script.scope.Named P
  body : ∀ node ∈ reading.script.body, node.Shaped P .script
  blocks : BlocksFit P reading.blocks

/-- So far all fits, and the next statement stands in a context. -/
structure In (P : String → Prop) (context : Context) (reading : Reading) : Prop where
  fits : reading.Fits P
  context : reading.context = context

theorem context_eq : reading.context = contextOf reading.blocks := by
  rw [Reading.context]
  cases reading.blocks <;> rfl

theorem Fits.named (h : reading.Fits P) : reading.scope.Named P := by
  rw [Reading.scope]
  cases hb : reading.blocks with
  | nil => exact h.scope
  | cons block outer =>
    have hblocks := h.blocks
    rw [hb] at hblocks
    exact hblocks.2.1

theorem fits_withScope (h : reading.Fits P) (hs : scope.Named P) :
    (reading.withScope scope).Fits P := by
  rw [withScope]
  cases hb : reading.blocks with
  | nil => exact ⟨hs, h.body, trivial⟩
  | cons block outer =>
    have hblocks := h.blocks
    rw [hb] at hblocks
    exact ⟨h.scope, h.body, hblocks.1, hs, hblocks.2.2⟩

/-- A construct that may stand in the innermost block joins it. -/
theorem fits_push (h : reading.Fits P) (hn : node.Shaped P reading.context) :
    (reading.push node).Fits P := by
  rw [context_eq] at hn
  rw [push]
  cases hb : reading.blocks with
  | nil =>
    rw [hb] at hn
    refine ⟨h.scope, ?_, trivial⟩
    intro other ho
    rcases List.mem_append.mp ho with ho | ho
    · exact h.body other ho
    · rw [List.mem_singleton.mp ho]
      exact hn
  | cons block outer =>
    rw [hb] at hn
    have hblocks := h.blocks
    rw [hb] at hblocks
    refine ⟨h.scope, h.body, hblocks.1, hblocks.2.1, ?_, hblocks.2.2.2⟩
    intro other ho
    rcases List.mem_append.mp ho with ho | ho
    · exact hblocks.2.2.1 other ho
    · rw [List.mem_singleton.mp ho]
      exact hn

/-- A block may be opened where its kind is allowed. -/
theorem fits_open {opening : Opening} (h : reading.Fits P) (ho : opening.Fits P reading.context)
    (hs : scope.Named P) :
    Fits P { reading with blocks := ⟨opening, scope, []⟩ :: reading.blocks } := by
  rw [context_eq] at ho
  exact ⟨h.scope, h.body, ho, hs, by simp, h.blocks⟩

end Reading

namespace Parser

variable {I : Reading → Prop} {M : Unit → Reading → Prop} {context : Context}

theorem ensures_modify {f : Reading → Reading} (h : ∀ reading, I reading → M () (f reading)) :
    Ensures I (modify f : Parser Unit) M := by
  refine .of_ok ?_
  rintro reading after _ hi ⟨⟩
  exact h reading hi

/-- A read moves the cursor and nothing else. -/
theorem exists_of_scan {read : Scan α} {reading after : Reading} {a : α}
    (h : outcome (scan read) reading = .ok (a, after)) :
    ∃ cursor, outcome read reading.cursor = .ok (a, cursor) ∧
      after = { reading with cursor := cursor } := by
  change scan read reading = _ at h
  rw [scan] at h
  split at h
  · next value cursor hread =>
    cases h
    exact ⟨cursor, outcome_eq_ok_iff.mpr hread, rfl⟩
  · cases h

theorem error_of_scan {read : Scan α} {reading : Reading} {error : Error}
    (h : outcome (scan read) reading = .error error) :
    outcome read reading.cursor = .error error := by
  change scan read reading = _ at h
  rw [scan] at h
  split at h
  · cases h
  · next found cursor hread =>
    cases h
    exact outcome_eq_error_iff.mpr ⟨cursor, hread⟩

theorem keeps_scan {read : Scan α} {Q : α → Prop} (hq : Gives Q read)
    (hi : ∀ reading cursor, I reading → I { reading with cursor := cursor }) :
    Keeps I Q (scan read) := by
  refine .of_ok fun {reading after a} h hrun => ?_
  obtain ⟨cursor, hread, rfl⟩ := exists_of_scan hrun
  exact ⟨(hq.ok trivial hread).1, hi _ _ h⟩

/-- A read of which only the cursor matters. -/
theorem ensures_skim {read : Scan α}
    (hi : ∀ reading cursor, I reading → I { reading with cursor := cursor }) :
    Ensures I (scan read) fun _ => I :=
  Outcome.imp (keeps_scan (Gives.of_forall fun _ => trivial) hi) fun _ _ h => h.2

theorem keeps_located {place : Location} {result : Except Error α} :
    Keeps I (fun a => result = .ok a) (located place result) := by
  cases result with
  | ok value => exact .pure rfl
  | error error => exact .throw

theorem in_cursor {reading : Reading} {cursor : Cursor} (h : reading.In P context) :
    Reading.In P context { reading with cursor := cursor } :=
  ⟨⟨h.fits.scope, h.fits.body, h.fits.blocks⟩, h.context⟩

theorem in_skim {read : Scan α} :
    Ensures (Reading.In P context) (scan read) fun _ => Reading.In P context :=
  ensures_skim fun _ _ => in_cursor

/-- Where the keyword is not allowed, the reading ends; so the block fits its context. -/
theorem ensures_openBlock {opening : Opening} {allowed : Bool} {place : Location}
    (ho : allowed = true → opening.Fits P context) :
    Ensures (Reading.In P context) (openBlock opening allowed place)
      fun _ reading => reading.Fits P := by
  refine .bind (Outcome.get (L := fun _ => Reading.In P context) fun _ h => h) fun reading => ?_
  dsimp only
  split
  · next hallowed =>
    refine .bind in_skim fun _ => ensures_modify fun reading h => ?_
    refine Reading.fits_open h.fits ?_ h.fits.named
    rw [h.context]
    exact ho hallowed
  · exact Ensures.throw_bind

/-- The scope in force names only what it may. -/
theorem ensures_getScope :
    Ensures (Reading.In P context) (get : Parser Reading)
      fun found reading => found.scope.Named P ∧ reading.In P context :=
  Outcome.get fun _ h => ⟨h.fits.named, h⟩

/-- A conditional fits anywhere, once its condition has become a tree of comparisons. -/
theorem ensures_conditional (hr : NameRule P) {loops : Bool} :
    Ensures (Reading.In P context) (conditional loops) fun _ reading => reading.Fits P := by
  refine .bind in_skim fun read => .bind keeps_located fun expr => .of_fact fun he => ?_
  refine .bind ensures_getScope fun found => .of_fact fun hs => ?_
  have hnamed := (Expr.named_ofText he).mono hr.formula
  dsimp only
  cases hrun : expr.condition.runIn found.scope with
  | mk result scope =>
    refine .bind keeps_located fun ⟨test, out⟩ => .of_fact fun htest => ?_
    subst htest
    obtain ⟨ht, ho, hafter⟩ := Expr.isTest_of_condition hr.scratch hnamed hs hrun
    refine .bind in_skim fun _ => ensures_modify fun reading h => ?_
    exact Reading.fits_open h.fits ⟨ho, ht⟩ hafter

/-- An alias stands for what its target resolved to, and that was a name before. -/
theorem ensures_bindAlias (hr : NameRule P) {place : Location} :
    Ensures (Reading.In P context) (bindAlias place) fun _ reading => reading.Fits P := by
  refine .bind in_skim fun word => .bind in_skim fun _ => ?_
  refine .bind (keeps_scan (Scan.gives_name hr) fun _ _ => in_cursor) fun target =>
    .of_fact fun htarget => ?_
  refine .bind ensures_getScope fun found => .of_fact fun hs => ?_
  refine .bind keeps_located fun scope => .of_fact fun hbind => ?_
  refine ensures_modify fun reading h => Reading.fits_withScope h.fits ?_
  intro name value hg
  rw [Scope.bind] at hbind
  split at hbind
  · cases hbind
  · cases hbind
    rw [Dict.get?_insert] at hg
    split at hg
    · cases hg
      exact hs.resolve htarget
    · exact hs name value hg

theorem ensures_assignOperator :
    Ensures (Reading.In P context) assignOperator fun _ => Reading.In P context := by
  refine .bind in_skim fun _ => ?_
  split
  · exact .bind in_skim fun _ => .pure fun _ h => h
  · exact .pure fun _ h => h

/-- The value is taken apart in the scope in which it is read. -/
theorem ensures_assign (hr : NameRule P) {name : String} (hn : P name)
    (hc : context.takesSteps = false) :
    Ensures (Reading.In P context) (assign name) fun _ reading => reading.Fits P := by
  refine .bind ensures_getScope fun found => .of_fact fun hs => ?_
  refine .bind ensures_assignOperator fun compound => ?_
  refine .bind in_skim fun read => .bind keeps_located fun value => .of_fact fun he => ?_
  have hvalue := (Expr.named_ofText he).mono hr.formula
  have hassign : ∀ expr : Expr, expr.Named P → Ensures (Reading.In P context) (do
      let node ← located read.2 (assignment (found.scope.resolve name) expr (← get).scope)
      modify (·.push node) : Parser Unit) fun _ reading => reading.Fits P := by
    intro expr hexpr
    refine .bind ensures_getScope fun later => .of_fact fun hs' => ?_
    refine .bind keeps_located fun node => .of_fact fun hnode => ensures_modify fun reading h => ?_
    refine Reading.fits_push h.fits ?_
    rw [h.context]
    exact .assignment hc
      (Expr.isAssignment_of_assignment hr.scratch hexpr hs' (hs.resolve hn) hnode)
  cases compound with
  | some op => exact hassign _ ⟨hn, hvalue⟩
  | none => exact hassign _ hvalue

theorem ensures_operand (hr : NameRule P) :
    Ensures (Reading.In P context) operand
      fun operand reading => operand.Named P ∧ reading.In P context := by
  refine .bind (keeps_scan (Scan.gives_word hr) fun _ _ => in_cursor) fun word =>
    .of_fact fun hword => ?_
  split
  · next text =>
    refine .bind ensures_getScope fun found => .of_fact fun hs => .pure fun reading h => ?_
    exact ⟨hs.resolve (hword text rfl), h⟩
  · exact .pure fun reading h => ⟨trivial, h⟩

theorem ensures_step (hr : NameRule P) {name : String} (hn : P name)
    (hc : context.takesSteps = true) :
    Ensures (Reading.In P context) (step name) fun _ reading => reading.Fits P := by
  refine .bind ensures_getScope fun found => .of_fact fun hs => ?_
  have hout := hs.resolve hn
  have hpush : ∀ step : Step, step.Named P → Ensures (Reading.In P context)
      (modify (·.push (.step step)) : Parser Unit) fun _ reading => reading.Fits P := by
    intro step hstep
    refine ensures_modify fun reading h => Reading.fits_push h.fits ?_
    rw [h.context]
    exact .step hc hstep
  dsimp only
  refine .bind ensures_assignOperator fun compound => ?_
  split
  · refine .bind (ensures_operand hr) fun right => .of_fact fun hright => ?_
    rw [pure_bind]
    exact hpush _ ⟨hout, hright, hout⟩
  · refine .bind (ensures_operand hr) fun left => .of_fact fun hleft => ?_
    refine .bind in_skim fun operator => ?_
    split
    · refine .bind (ensures_operand hr) fun right => .of_fact fun hright => ?_
      rw [pure_bind]
      exact hpush _ ⟨hleft, hright, hout⟩
    · rw [pure_bind]
      exact hpush _ ⟨hleft, trivial, hout⟩

/-- The context decides which keywords are allowed and what an assignment is. -/
theorem ensures_statement (hr : NameRule P) {keyword : String} {place : Location}
    (hk : P keyword) :
    Ensures (Reading.Fits P) (statement keyword place) fun _ reading => reading.Fits P := by
  refine .bind (Outcome.get (L := fun found => Reading.In P found.context) fun _ h => ⟨h, rfl⟩)
    fun found => ?_
  generalize found.context = context
  dsimp only
  split
  · exact ensures_openBlock fun h => show context = .script by simpa using h
  · exact ensures_openBlock fun h => show context = .chain by simpa using h
  · exact ensures_openBlock fun h => show context = .parallel by simpa using h
  · exact ensures_conditional hr
  · exact ensures_conditional hr
  · exact ensures_bindAlias hr
  · split
    · next hc => exact ensures_step hr hk hc
    · next hc => exact ensures_assign hr hk (Bool.eq_false_iff.mpr hc)

theorem ensures_close {place : Location} :
    Ensures (Reading.Fits P) (close place) fun _ reading => reading.Fits P := by
  refine .bind (Outcome.get (L := fun found _ => found.Fits P) fun _ h => h) fun found => ?_
  split
  · next block outer hb =>
    refine Ensures.of_ok ?_
    rintro reading after _ h ⟨⟩
    obtain ⟨hscope, hbody, hblocks⟩ := h
    rw [hb] at hblocks
    refine Reading.fits_push ⟨hscope, hbody, hblocks.2.2.2⟩ ?_
    rw [Reading.context_eq]
    exact shaped_close hblocks.1 hblocks.2.2.1
  · exact Ensures.throw

theorem fits_cursor {reading : Reading} {cursor : Cursor} (h : reading.Fits P) :
    Reading.Fits P { reading with cursor := cursor } := ⟨h.scope, h.body, h.blocks⟩

/-- By induction on the fuel, with the fitting of all blocks as invariant. -/
theorem ensures_statements (hr : NameRule P) {fuel : Nat} :
    Ensures (Reading.Fits P) (statements fuel) fun _ reading => reading.Fits P := by
  have hskim : ∀ {γ : Type} {read : Scan γ},
      Ensures (Reading.Fits P) (scan read) fun _ => Reading.Fits P := fun {γ read} =>
    ensures_skim fun _ _ => fits_cursor
  induction fuel with
  | zero => exact .pure fun _ h => h
  | succ fuel ih =>
    refine .bind hskim fun _ => ?_
    refine .bind (Outcome.get (L := fun _ => Reading.Fits P) fun _ h => h) fun found => ?_
    dsimp only
    split
    · exact .pure fun _ h => h
    · refine .bind hskim fun closes => ?_
      split
      · exact .bind ensures_close fun _ => ih
      · refine .bind (keeps_scan (Scan.gives_name hr) fun _ _ => fits_cursor) fun name =>
          .of_fact fun hn => ?_
        exact .bind (ensures_statement hr hn) fun _ => ih

end Parser

namespace Script

variable {source : String} {script : Script}

theorem named_root (hr : NameRule P) : Scope.root.Named P := by
  intro name target h
  rw [Scope.root, Dict.get?_insert] at h
  split at h
  · cases h
    exact hr.each
  · cases h

/-- Every program that is accepted has the shape of the language. -/
theorem shaped_of_parse (hr : NameRule P) (h : parse source = .ok script) :
    ∀ node ∈ script.body, node.Shaped P .script := by
  obtain ⟨⟨_, reading⟩, hrun, h⟩ := exists_of_bind_ok h
  have hfits := (Parser.ensures_statements hr).ok
    (⟨named_root hr, by simp, trivial⟩ : Reading.Fits P ⟨.ofText source, ⟨.root, []⟩, []⟩) hrun
  dsimp only at h
  split at h
  · cases h
  · cases h
    exact hfits.body

/-- What can be evaluated of the result of a text. -/
theorem exists_parse {Q : Script → Prop} [∀ script, Decidable (Q script)]
    (h : (parse source).toOption.any (Q ·) = true) :
    ∃ script, parse source = .ok script ∧ Q script := by
  cases he : parse source with
  | error error => simp [he, Except.toOption] at h
  | ok script =>
    rw [he] at h
    exact ⟨script, rfl, of_decide_eq_true h⟩

end Script

end CircuitScript
