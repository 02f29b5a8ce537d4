import CircuitScript.Proofs.CursorMoves
import CircuitScript.Proofs.ScratchHygiene
/-!
What comes of reading a script. Every name of a program was a word of the text, is a scratch signal
or is what an alias stands for; and every fault has a place that the reader came by, though those of
expressions, scopes and scratch signals arise without one.
-/
namespace CircuitScript

variable {α β : Type} {P : String → Prop}

/-- A fault of a script whose place is not known yet. -/
def Error.IsLoose : Error → Prop
  | .syntactic _ none | .structural _ none | .exhausted _ none => True
  | _ => False

/-- A fault without a place takes the place at which it is reported. -/
theorem Error.IsLoose.place?_located {error : Error} (h : error.IsLoose) (place : Location) :
    (error.located (some place)).place? = some place := by
  cases error with
  | syntactic fault known | structural fault known | exhausted pool known =>
    cases known with
    | none => rfl
    | some known => exact h.elim
  | _ => exact h.elim

namespace Scratch

/-- Whenever the action fails, its error is a fault of a script without a place. -/
abbrev FailsLoose (action : Scratch α) : Prop :=
  Outcome (fun _ => True) action (fun _ _ => True) Error.IsLoose

namespace FailsLoose

theorem pure {a : α} : FailsLoose (Pure.pure a) := Outcome.pure fun _ _ => trivial

theorem get : FailsLoose MonadState.get := Outcome.get fun _ _ => trivial

theorem lift {result : Except Error α} (h : ∀ error, result = .error error → error.IsLoose) :
    FailsLoose (liftM result) where
  ok := fun _ _ => trivial
  error := by
    intro scope error _ he
    obtain ⟨after, ⟨⟩⟩ := outcome_eq_error_iff.mp he
    exact h error rfl

theorem fresh {avoid : NameSet} : FailsLoose (Scratch.fresh avoid) := by
  refine .bind get fun scope => ?_
  rw [Scope.allocate]
  split
  · next h =>
    split at h
    · exact ⟨fun _ _ => trivial, by rintro _ _ - ⟨⟩⟩
    · cases h
  · next h =>
    split at h
    · cases h
    · cases h
      exact .throw trivial

end FailsLoose

end Scratch

namespace Expr

open Scratch (FailsLoose)

variable {expr left right : Expr} {avoid : NameSet} {out : String}

/-- Where an expression is no leaf and nothing holds its value, there is no operand, and no place to
name. -/
theorem loose_operand {held : Option String} (error : Error)
    (h : expr.operand held = .error error) : error.IsLoose := by
  unfold Expr.operand at h
  split at h
  · cases h
  · cases h
  · cases h
  · cases h
    trivial

theorem failsLoose_holder : FailsLoose (expr.holder avoid) := by
  unfold holder
  split
  · exact .bind FailsLoose.fresh fun _ => FailsLoose.pure
  · exact FailsLoose.pure

theorem failsLoose_leaf : FailsLoose (do
    let value ← liftM (expr.operand none)
    return [⟨value, .add, .constant 0, out⟩] : Scratch (List Step)) :=
  .bind (FailsLoose.lift loose_operand) fun _ => FailsLoose.pure

/-- Whatever keeps an expression from being cut into steps, the reader has yet to say where it
arose. -/
theorem failsLoose_steps : FailsLoose (expr.steps avoid out) := by
  induction expr generalizing out with
  | literal value => exact failsLoose_leaf
  | name signal => exact failsLoose_leaf
  | unary op argument => exact failsLoose_leaf
  | binary op left right negated ihl ihr =>
    cases ha : op.arith? with
    | none =>
      simp only [steps, ha]
      exact .throw trivial
    | some arith =>
      have hheld : ∀ {operand : Expr} {held : Option String},
          (∀ {out}, FailsLoose (operand.steps avoid out)) →
            FailsLoose (operand.heldSteps avoid held) := by
        intro operand held hsteps
        cases held with
        | none => exact FailsLoose.pure
        | some temp => exact hsteps
      rw [steps_binary ha]
      refine .bind failsLoose_holder fun _ => .bind failsLoose_holder fun _ => ?_
      refine .bind (hheld ihl) fun _ => .bind (hheld ihr) fun _ => ?_
      have hoperand : ∀ {operand : Expr} {held : Option String},
          FailsLoose (liftM (operand.operand held)) := .lift loose_operand
      exact .bind hoperand fun _ => .bind hoperand fun _ => FailsLoose.pure

theorem failsLoose_side : FailsLoose (expr.side avoid) := by
  cases expr with
  | literal value => exact FailsLoose.pure
  | name signal => exact FailsLoose.pure
  | unary op argument => exact .throw trivial
  | binary op left right negated =>
    by_cases ht : op.tier = .arithmetic
    · simp only [side, ht, if_true]
      refine .bind FailsLoose.fresh fun _ => .bind failsLoose_steps fun _ => ?_
      exact .bind FailsLoose.get fun _ => FailsLoose.pure
    · simp only [side, ht, if_false]
      exact .throw trivial

theorem failsLoose_comparison {op : Comparator} {negated : Bool} :
    FailsLoose (comparison avoid out op negated left right) :=
  .bind failsLoose_side fun _ => .bind failsLoose_side fun _ => FailsLoose.pure

theorem failsLoose_testNode : FailsLoose (testNode avoid out expr) := by
  cases expr with
  | binary op left right negated =>
    by_cases ht : op.tier = .relational
    · simp only [testNode, ht, if_true]
      split
      · exact failsLoose_comparison
      · exact .throw trivial
    · simp only [testNode, ht, if_false]
      exact failsLoose_comparison
  | _ => exact failsLoose_comparison

theorem failsLoose_members {parent : BinaryOp} : FailsLoose (expr.members avoid out parent) := by
  induction expr generalizing parent with
  | binary op left right negated ihl ihr =>
    by_cases ht : op.tier = .logical
    · simp only [members, ht, if_true]
      refine .bind ihl fun _ => .bind ihr fun _ => ?_
      split
      · exact FailsLoose.pure
      · exact FailsLoose.pure
    · simp only [members, ht, if_false]
      exact .bind failsLoose_testNode fun _ => FailsLoose.pure
  | _ => exact .bind failsLoose_testNode fun _ => FailsLoose.pure

theorem failsLoose_conditionNode : FailsLoose (expr.conditionNode avoid out) := by
  cases expr with
  | binary op left right negated =>
    by_cases ht : op.tier = .logical
    · simp only [conditionNode, ht, if_true]
      exact .bind failsLoose_members fun _ => .bind failsLoose_members fun _ => FailsLoose.pure
    · simp only [conditionNode, ht, if_false]
      exact failsLoose_testNode
  | _ =>
    rw [conditionNode_of_not_isLogical rfl]
    exact failsLoose_testNode

/-- A condition that cannot be built, be it constant, malformed or too long for the pool, fails
without a place. -/
theorem failsLoose_condition : FailsLoose expr.condition := by
  refine .bind FailsLoose.get fun scope => ?_
  have hrest : ∀ {simplified : Expr}, FailsLoose (do
      let out ← Scratch.fresh simplified.names
      return (← conditionNode simplified.names out simplified, out)) :=
    .bind FailsLoose.fresh fun _ => .bind failsLoose_conditionNode fun _ => FailsLoose.pure
  dsimp only
  split
  · exact .bind (.throw trivial) fun _ => hrest
  · exact hrest

theorem loose_ofText {raw : String} (error : Error) (h : ofText raw = .error error) :
    error.IsLoose := by
  rw [ofText] at h
  split at h
  · cases h
  · cases h
    trivial

end Expr

/-- An assignment fails only where its value cannot be cut into steps. -/
theorem loose_assignment {target : String} {expr : Expr} {scope : Scope} (error : Error)
    (h : assignment target expr scope = .error error) : error.IsLoose := by
  rw [assignment] at h
  split at h
  · cases h
  · next hrun =>
    cases h
    exact Expr.failsLoose_steps.error trivial (outcome_eq_error_iff.mpr ⟨_, hrun⟩)

theorem Scope.loose_bind {scope : Scope} {word target : String} (error : Error)
    (h : scope.bind word target = .error error) : error.IsLoose := by
  rw [Scope.bind] at h
  split at h
  · cases h
    trivial
  · cases h

/-- Every alias, and what it stands for, has the property. -/
def Scope.Spelt (P : String → Prop) (scope : Scope) : Prop :=
  ∀ entry ∈ scope.aliases.entries, P entry.1 ∧ P entry.2

mutual

/-- Every name in the construct has the property: the signals that its steps and comparisons read
and write, and the aliases that it keeps. -/
def Node.Named (P : String → Prop) : Node → Prop
  | .chain scope body | .parallel scope body | .series scope body =>
    scope.Spelt P ∧ BodyNamed P body
  | .conditional _ scope test out body => scope.Spelt P ∧ test.Named P ∧ P out ∧ BodyNamed P body
  | .compare _ _ left right out => left.Named P ∧ right.Named P ∧ P out
  | .and _ body out | .or _ body out => BodyNamed P body ∧ P out
  | .step step => step.Named P

def BodyNamed (P : String → Prop) : List Node → Prop
  | [] => True
  | node :: rest => node.Named P ∧ BodyNamed P rest

def Side.Named (P : String → Prop) : Side → Prop
  | .value operand => operand.Named P
  | .series scope body => scope.Spelt P ∧ BodyNamed P body

end

/-- Every name in the program has the property. -/
def Script.Named (P : String → Prop) (script : Script) : Prop :=
  script.scope.Spelt P ∧ BodyNamed P script.body

theorem bodyNamed_iff {body : List Node} : BodyNamed P body ↔ ∀ node ∈ body, node.Named P := by
  induction body with
  | nil => simp [BodyNamed]
  | cons node rest ih => simp [BodyNamed, ih]

theorem bodyNamed_steps {steps : List Step} (h : ∀ step ∈ steps, step.Named P) :
    BodyNamed P (steps.map .step) := by
  rw [bodyNamed_iff]
  intro node hm
  obtain ⟨step, hstep, rfl⟩ := List.mem_map.mp hm
  exact h step hstep

namespace Scope

variable {scope after : Scope} {word target : String}

/-- Where both sides of every alias are right, so is what any name resolves to. -/
theorem Spelt.named (h : scope.Spelt P) : scope.Named P := by
  intro name value hget
  have hm : ∃ entry ∈ scope.aliases.entries, entry.2 = value := by
    rw [Dict.get?] at hget
    generalize scope.aliases.entries = entries at hget
    induction entries with
    | nil => cases hget
    | cons entry rest ih =>
      rw [List.lookup_cons] at hget
      split at hget
      · exact ⟨entry, List.mem_cons_self, Option.some.inj hget⟩
      · obtain ⟨found, hm, hv⟩ := ih hget
        exact ⟨found, List.mem_cons_of_mem _ hm, hv⟩
  obtain ⟨entry, hentry, rfl⟩ := hm
  exact (h entry hentry).2

theorem Spelt.of_aliases (h : scope.Spelt P) (ha : after.aliases = scope.aliases) :
    after.Spelt P := by
  rw [Spelt, ha]
  exact h

/-- A new alias is right if its word is, and if what it is to stand for is. -/
theorem Spelt.bind (h : scope.Spelt P) (hw : P word) (ht : P target)
    (hb : scope.bind word target = .ok after) : after.Spelt P := by
  have hplace : ∀ {entries : List (String × String)} {value : String}, P value →
      (∀ entry ∈ entries, P entry.1 ∧ P entry.2) →
      ∀ entry ∈ Dict.place word value entries, P entry.1 ∧ P entry.2 := by
    intro entries value hv he
    induction entries with
    | nil => simp [Dict.place, hw, hv]
    | cons first rest ih =>
      obtain ⟨hfirst, hrest⟩ := List.forall_mem_cons.mp he
      unfold Dict.place
      split
      · exact List.forall_mem_cons.mpr ⟨⟨hw, hv⟩, hrest⟩
      · split
        · exact List.forall_mem_cons.mpr ⟨⟨hw, hv⟩, he⟩
        · exact List.forall_mem_cons.mpr ⟨hfirst, ih hrest⟩
  rw [Scope.bind] at hb
  split at hb
  · cases hb
  · cases hb
    exact hplace (h.named.resolve ht) h

end Scope

/-- In a side of a comparison all names are right if the signals that it reads are, and the aliases
of its scope. -/
theorem Side.Shaped.named {side : Side} (h : side.Shaped P)
    (hs : ∀ scope ∈ side.scopes, scope.Spelt P) : side.Named P := by
  cases h with
  | value h => exact h
  | series hne h => exact ⟨hs _ List.mem_cons_self, bodyNamed_steps h⟩

theorem mem_bodyScopes {scope : Scope} {node : Node} {body : List Node} (hn : node ∈ body)
    (h : scope ∈ node.scopes) : scope ∈ bodyScopes body := by
  induction body with
  | nil => cases hn
  | cons first rest ih =>
    rw [bodyScopes, List.mem_append]
    rcases List.mem_cons.mp hn with rfl | hn
    · exact .inl h
    · exact .inr (ih hn)

/-- In a condition all names are right if those of its comparisons and of its scopes are. -/
theorem Node.IsTest.named {test : Node} {out : String} (h : test.IsTest P out) (ho : P out)
    (hs : ∀ scope ∈ test.scopes, scope.Spelt P) : test.Named P := by
  induction h with
  | compare hl _ hr =>
    exact ⟨hl.named fun scope hm => hs scope (List.mem_append_left _ hm),
      hr.named fun scope hm => hs scope (List.mem_append_right _ hm), ho⟩
  | and _ _ _ ih | or _ _ _ ih =>
    refine ⟨bodyNamed_iff.mpr fun node hm => ih node hm fun scope hscope => ?_, ho⟩
    exact hs scope (mem_bodyScopes hm hscope)

/-- An assignment names the signal that stands for all others besides those of its target and
value. -/
theorem Node.IsAssignment.named {node : Node} (h : node.IsAssignment P) (he : P each)
    (hs : ∀ scope ∈ node.scopes, scope.Spelt P) : node.Named P := by
  have hpass : (Node.step .passthrough).Named P := ⟨he, trivial, he⟩
  cases h with
  | replacing ht _ h =>
    refine ⟨hs _ List.mem_cons_self, hpass, ⟨hs _ ?_, bodyNamed_steps h⟩, ⟨ht, trivial, ht⟩,
      trivial⟩
    simp [Node.scopes, bodyScopes, CircuitScript.replacing]
  | scaling ht =>
    refine ⟨hs _ List.mem_cons_self, hpass, ⟨hs _ ?_, ⟨ht, trivial, ht⟩, trivial⟩, trivial⟩
    simp [Node.scopes, bodyScopes, CircuitScript.scaling]

/-- The characters that are taken one by one, which are none of words. -/
abbrev Cursor.isMark (c : Char) : Bool := !Cursor.isWordChar c

open Cursor (Moves Visits isMark)

/-- A property of every name that gets into a program when the text is read from `origin` on. -/
structure Spelling (origin : Cursor) (P : String → Prop) : Prop where
  word : ∀ name, Scan.NameFrom isMark origin name → P name
  formula : ∀ text, Formula.IsWord text → P text
  scratch : ∀ name ∈ scratchSignals, P name
  each : P each
  all : P "@"

def Opening.Named (P : String → Prop) : Opening → Prop
  | .conditional _ test out => test.Named P ∧ P out
  | _ => True

/-- Every name in the block so far has the property. -/
structure OpenBlock.Named (P : String → Prop) (block : OpenBlock) : Prop where
  opening : block.opening.Named P
  scope : block.scope.Spelt P
  body : ∀ node ∈ block.body, node.Named P

/-- Closing a block brings in no names. -/
theorem OpenBlock.Named.close {block : OpenBlock} (h : block.Named P) : block.close.Named P := by
  obtain ⟨opening, scope, body⟩ := block
  obtain ⟨hopening, hscope, hbody⟩ := h
  have hnodes := bodyNamed_iff.mpr hbody
  cases opening with
  | conditional loops test out => exact ⟨hscope, hopening.1, hopening.2, hnodes⟩
  | _ => exact ⟨hscope, hnodes⟩

namespace Reading

variable {origin : Cursor} {reading : Reading} {scope : Scope} {node : Node}

theorem cursor_withScope (scope : Scope) (reading : Reading) :
    (reading.withScope scope).cursor = reading.cursor := by
  rw [withScope]
  split <;> rfl

theorem cursor_push (node : Node) (reading : Reading) :
    (reading.push node).cursor = reading.cursor := by
  rw [push]
  split <;> rfl

/-- The reader stands where it can get from `origin`, and every name so far has the property. -/
structure Sound (origin : Cursor) (P : String → Prop) (reading : Reading) : Prop where
  cursor : Moves isMark origin reading.cursor
  scope : reading.script.scope.Spelt P
  body : ∀ node ∈ reading.script.body, node.Named P
  blocks : ∀ block ∈ reading.blocks, block.Named P

theorem Sound.spelt (h : reading.Sound origin P) : reading.scope.Spelt P := by
  rw [Reading.scope]
  split
  · next block outer hb => exact (h.blocks block (hb ▸ List.mem_cons_self)).scope
  · exact h.scope

theorem Sound.withScope (h : reading.Sound origin P) (hs : scope.Spelt P) :
    (reading.withScope scope).Sound origin P := by
  rw [Reading.withScope]
  split
  · next block outer hb =>
    have hblocks := h.blocks
    rw [hb] at hblocks
    obtain ⟨hblock, houter⟩ := List.forall_mem_cons.mp hblocks
    refine ⟨h.cursor, h.scope, h.body, List.forall_mem_cons.mpr ⟨?_, houter⟩⟩
    exact ⟨hblock.opening, hs, hblock.body⟩
  · exact ⟨h.cursor, hs, h.body, h.blocks⟩

/-- A finished construct joins the innermost block that is open, or else the program. -/
theorem Sound.push (h : reading.Sound origin P) (hn : node.Named P) :
    (reading.push node).Sound origin P := by
  have hconcat : ∀ {body : List Node}, (∀ node ∈ body, node.Named P) →
      ∀ other ∈ body ++ [node], other.Named P := by
    intro body hb other ho
    rcases List.mem_append.mp ho with ho | ho
    · exact hb other ho
    · rw [List.mem_singleton.mp ho]
      exact hn
  rw [Reading.push]
  split
  · next block outer hb =>
    have hblocks := h.blocks
    rw [hb] at hblocks
    obtain ⟨hblock, houter⟩ := List.forall_mem_cons.mp hblocks
    refine ⟨h.cursor, h.scope, h.body, List.forall_mem_cons.mpr ⟨?_, houter⟩⟩
    exact ⟨hblock.opening, hblock.scope, hconcat hblock.body⟩
  · exact ⟨h.cursor, h.scope, hconcat h.body, h.blocks⟩

/-- A block is entered with nothing in it. -/
theorem Sound.enter {opening : Opening} (h : reading.Sound origin P) (ho : opening.Named P)
    (hs : scope.Spelt P) :
    Sound origin P { reading with blocks := ⟨opening, scope, []⟩ :: reading.blocks } :=
  ⟨h.cursor, h.scope, h.body, List.forall_mem_cons.mpr ⟨⟨ho, hs, by simp⟩, h.blocks⟩⟩

end Reading

namespace Parser

variable {origin : Cursor} {Q : α → Prop}

/-- Whenever the action succeeds the reader has moved on, all stays sound, and its result has the
property; whenever it fails, the error has a place that the reader came by. -/
abbrev Upholds (origin : Cursor) (P : String → Prop) (action : Parser α) (Q : α → Prop) : Prop :=
  Travels (Reading.Sound origin P) (Cursor.Move isMark) Reading.cursor
    (Error.PlacedFrom isMark origin) action Q

/-- A read moves the reader along with the cursor, and its errors have places already. -/
theorem upholds_scan {read : Scan α} (h : Scan.Walks isMark origin read Q) :
    Upholds origin P (scan read) Q where
  ok := by
    intro reading after a hr hrun
    obtain ⟨cursor, hread, rfl⟩ := exists_of_scan hrun
    obtain ⟨hmoves, hcursor, hq⟩ := h.ok hr.cursor hread
    exact ⟨hmoves, ⟨hcursor, hr.scope, hr.body, hr.blocks⟩, hq⟩
  error := fun hr hrun => h.error hr.cursor (error_of_scan hrun)

/-- What arises without a place is given one that the reader came by. -/
theorem upholds_located {place : Location} {result : Except Error α}
    (hp : Visits isMark origin place) (h : ∀ error, result = .error error → error.IsLoose) :
    Upholds origin P (located place result) fun a => result = .ok a := by
  cases result with
  | ok value => exact .pure rfl
  | error error => exact .throw ⟨place, (h error rfl).place?_located place, hp⟩

theorem upholds_modify {f : Reading → Reading} (hc : ∀ reading, (f reading).cursor = reading.cursor)
    (h : ∀ reading, reading.Sound origin P → (f reading).Sound origin P) :
    Upholds origin P (modify f : Parser Unit) fun _ => True where
  ok := by
    rintro reading after b hr ⟨⟩
    rw [hc]
    exact ⟨.refl, h reading hr, trivial⟩
  error := by
    rintro reading error hr ⟨⟩

/-- The place was visited, so a fault there can be reported. -/
theorem placed_structural {fault : StructureFault} {place : Location}
    (h : Visits isMark origin place) :
    (Error.structural fault (some place)).PlacedFrom isMark origin := ⟨place, rfl, h⟩

theorem upholds_openBlock {opening : Opening} {allowed : Bool} {place : Location}
    (ho : opening.Named P) (hp : Visits isMark origin place) :
    Upholds origin P (openBlock opening allowed place) fun _ => True := by
  refine .bind .get fun reading _ => ?_
  dsimp only
  split
  · refine .bind (upholds_scan (Scan.walks_expect rfl)) fun _ _ => ?_
    exact upholds_modify (fun _ => rfl) fun reading h => h.enter ho h.spelt
  · exact .bind (Q := fun _ => False) (.throw (placed_structural hp)) fun _ h => h.elim

/-- The condition is read in the scope of the block around it and leaves its scratch signals to the
block that it opens. -/
theorem upholds_conditional (hr : Spelling origin P) {loops : Bool} :
    Upholds origin P (conditional loops) fun _ => True := by
  refine .bind (upholds_scan Scan.walks_expression) fun read hplace => ?_
  refine .bind (upholds_located hplace Expr.loose_ofText) fun expr hexpr => ?_
  refine .bind .get fun found hfound => ?_
  have hnamed := (Expr.named_ofText hexpr).mono hr.formula
  dsimp only
  cases hrun : expr.condition.runIn found.scope with
  | mk result scope =>
    have hloose : ∀ error, result = .error error → error.IsLoose := by
      rintro error rfl
      exact Expr.failsLoose_condition.error trivial (outcome_eq_error_iff.mpr ⟨_, hrun⟩)
    refine .bind (upholds_located hplace hloose) ?_
    rintro ⟨test, out⟩ rfl
    obtain ⟨ht, ho, -⟩ := Expr.isTest_of_condition hr.scratch hnamed hfound.spelt.named hrun
    obtain ⟨names, rfl, -, -, hkept⟩ := Expr.condition_takes hrun
    refine .bind (upholds_scan (Scan.walks_expect rfl)) fun _ _ => ?_
    refine upholds_modify (fun _ => rfl) fun reading h =>
      h.enter ⟨ht.named ho fun kept hk => ?_, ho⟩ (hfound.spelt.of_aliases rfl)
    obtain ⟨taken, rfl, -⟩ := hkept kept hk
    exact hfound.spelt.of_aliases rfl

theorem upholds_name (hr : Spelling origin P) : Upholds origin P (scan .name) P :=
  upholds_scan (Scan.walks_name.imp hr.word)

/-- Both words of an alias are read from the text. -/
theorem upholds_bindAlias (hr : Spelling origin P) {place : Location}
    (hp : Visits isMark origin place) : Upholds origin P (bindAlias place) fun _ => True := by
  refine .bind (upholds_name hr) fun word hword => ?_
  refine .bind (upholds_scan (Scan.walks_expect rfl)) fun _ _ => ?_
  refine .bind (upholds_name hr) fun target htarget => .bind .get fun found hfound => ?_
  refine .bind (upholds_located hp Scope.loose_bind) fun scope hbind => ?_
  exact upholds_modify (Reading.cursor_withScope scope) fun reading h =>
    h.withScope (hfound.spelt.bind hword htarget hbind)

theorem upholds_assignOperator : Upholds origin P assignOperator fun _ => True := by
  refine .bind (upholds_scan (Scan.walks_expectOne (List.all_eq_true.mp (by decide)))) fun c _ => ?_
  split
  · exact .bind (upholds_scan (Scan.walks_expect rfl)) fun _ _ => .pure trivial
  · exact .pure trivial

/-- An operator before the equals sign makes the target the left operand of the value. -/
theorem upholds_assign (hr : Spelling origin P) {name : String} (hn : P name) :
    Upholds origin P (assign name) fun _ => True := by
  refine .bind .get fun found hfound => .bind upholds_assignOperator fun compound _ => ?_
  refine .bind (upholds_scan Scan.walks_expression) fun read hplace => ?_
  refine .bind (upholds_located hplace Expr.loose_ofText) fun value hvalue => ?_
  have hnamed := (Expr.named_ofText hvalue).mono hr.formula
  have hassign : ∀ expr : Expr, expr.Named P → Upholds origin P (do
      let node ← located read.2 (assignment (found.scope.resolve name) expr (← get).scope)
      modify (·.push node) : Parser Unit) fun _ => True := by
    intro expr hexpr
    refine .bind .get fun later hlater => ?_
    refine .bind (upholds_located hplace loose_assignment) fun node hnode => ?_
    refine upholds_modify (Reading.cursor_push node) fun reading h => ?_
    refine h.push ((Expr.isAssignment_of_assignment hr.scratch hexpr hlater.spelt.named
      (hfound.spelt.named.resolve hn) hnode).named hr.each fun kept hk => ?_)
    obtain ⟨members, rfl, -, hkept⟩ := assignment_takes hnode
    rcases List.mem_cons.mp hk with rfl | hk
    · exact hlater.spelt
    · obtain ⟨taken, rfl, -⟩ := hkept kept hk
      exact hlater.spelt.of_aliases rfl
  cases compound with
  | some op => exact hassign _ ⟨hn, hnamed⟩
  | none => exact hassign _ hnamed

theorem upholds_operand (hr : Spelling origin P) :
    Upholds origin P operand fun operand => operand.Named P := by
  refine .bind (upholds_scan Scan.walks_word) fun word hword => ?_
  split
  · next text =>
    refine .bind .get fun found hfound => .pure ?_
    exact hfound.spelt.named.resolve (hr.word text (hword text rfl))
  · exact .pure trivial

theorem upholds_step (hr : Spelling origin P) {name : String} (hn : P name) :
    Upholds origin P (step name) fun _ => True := by
  have hpush : ∀ step : Step, step.Named P → Upholds origin P
      (modify (·.push (.step step))) fun _ => True := fun step hstep =>
    upholds_modify (Reading.cursor_push (.step step)) fun reading h => h.push hstep
  refine .bind .get fun found hfound => ?_
  have hout := hfound.spelt.named.resolve hn
  dsimp only
  refine .bind upholds_assignOperator fun compound _ => ?_
  split
  · refine .bind (upholds_operand hr) fun right hright => ?_
    rw [pure_bind]
    exact hpush _ ⟨hout, hright, hout⟩
  · refine .bind (upholds_operand hr) fun left hleft => ?_
    refine .bind (upholds_scan (Scan.walks_eatOne (List.all_eq_true.mp (by decide))))
      fun operator _ => ?_
    split
    · refine .bind (upholds_operand hr) fun right hright => ?_
      rw [pure_bind]
      exact hpush _ ⟨hleft, hright, hout⟩
    · rw [pure_bind]
      exact hpush _ ⟨hleft, trivial, hout⟩

/-- Every keyword leads to a statement of its own; all other words are targets. -/
theorem upholds_statement (hr : Spelling origin P) {keyword : String} {place : Location}
    (hk : P keyword) (hp : Visits isMark origin place) :
    Upholds origin P (statement keyword place) fun _ => True := by
  refine .bind .get fun found _ => ?_
  dsimp only
  split
  · exact upholds_openBlock trivial hp
  · exact upholds_openBlock trivial hp
  · exact upholds_openBlock trivial hp
  · exact upholds_conditional hr
  · exact upholds_conditional hr
  · exact upholds_bindAlias hr hp
  · split
    · exact upholds_step hr hk
    · exact upholds_assign hr hk

theorem upholds_close {place : Location} (hp : Visits isMark origin place) :
    Upholds origin P (close place) fun _ => True where
  ok := by
    rintro ⟨cursor, script, blocks⟩ after _ hr h
    cases blocks with
    | nil => cases h
    | cons block outer =>
      cases h
      obtain ⟨hblock, houter⟩ := List.forall_mem_cons.mp hr.blocks
      have houtside : Reading.Sound origin P ⟨cursor, script, outer⟩ :=
        ⟨hr.cursor, hr.scope, hr.body, houter⟩
      rw [Reading.cursor_push]
      exact ⟨.refl, houtside.push hblock.close, trivial⟩
  error := by
    rintro ⟨cursor, script, blocks⟩ error hr h
    cases blocks with
    | nil =>
      cases h
      exact placed_structural hp
    | cons block outer => cases h

/-- One statement, or the end of a block, unless the text is at its end. Says whether there was
one. -/
def round : Parser Bool := do
  scan .skipSeparators
  let cursor := (← get).cursor
  if cursor.atEnd then return false
  else
    if ← scan (.eat '\x7d') then close cursor.location
    else statement (← scan .name) cursor.location
    return true

/-- Statements are read round by round. -/
theorem statements_succ (fuel : Nat) :
    statements (fuel + 1) = (do if ← round then statements fuel) := by
  simp only [statements, round, bind_assoc]
  congr
  funext _
  congr
  funext found
  cases found.cursor.atEnd with
  | true => rfl
  | false =>
    simp only [Bool.false_eq_true, if_false, bind_assoc]
    congr
    funext closes
    cases closes with
    | true => simp only [if_true, bind_assoc, pure_bind]
    | false => simp only [Bool.false_eq_true, if_false, if_true, bind_assoc, pure_bind]

theorem upholds_round (hr : Spelling origin P) : Upholds origin P round fun _ => True := by
  refine .bind (upholds_scan Scan.walks_skipSeparators) fun _ _ => .bind .get fun found hfound => ?_
  have hplace : Visits isMark origin found.cursor.location := ⟨found.cursor, hfound.cursor, rfl⟩
  dsimp only
  split
  · exact .pure trivial
  · refine .bind (upholds_scan (Scan.walks_eat rfl)) fun closes _ => ?_
    split
    · exact .bind (upholds_close hplace) fun _ _ => .pure trivial
    · refine .bind (upholds_name hr) fun keyword hkeyword => ?_
      exact .bind (upholds_statement hr hkeyword hplace) fun _ _ => .pure trivial

/-- By induction on the fuel, of which each round takes one. -/
theorem upholds_statements (hr : Spelling origin P) {fuel : Nat} :
    Upholds origin P (statements fuel) fun _ => True := by
  induction fuel with
  | zero => exact .pure trivial
  | succ fuel ih =>
    rw [statements_succ]
    refine .bind (upholds_round hr) fun more _ => ?_
    split
    · exact ih
    · exact .pure trivial

end Parser

/-- The script that has been read, if no block is left open. -/
def Reading.finish (reading : Reading) : Except Error Script :=
  match reading.blocks with
  | block :: _ =>
    throw (.syntactic (.unclosed block.opening.context) (some reading.cursor.location))
  | [] => return reading.script

/-- Where the reading of a text begins. -/
def Reading.start (source : String) : Reading := ⟨.ofText source, ⟨.root, []⟩, []⟩

namespace Script

variable {source : String}

/-- A text is read in two parts: all statements, and then the check that no block is left open. -/
theorem parse_eq (source : String) :
    parse source = ((Parser.statements (source.length + 1) (.start source)).map Prod.snd >>=
      Reading.finish) := by
  rw [parse]
  show (Parser.statements (source.length + 1) (.start source) >>= _) = _
  cases Parser.statements (source.length + 1) (.start source) with
  | error error => rfl
  | ok result => rfl

/-- Every name in a script has what every name has that gets there. -/
theorem named_of_parse {script : Script} (hr : Spelling (.ofText source) P)
    (h : parse source = .ok script) : script.Named P := by
  have hroot : Scope.root.Spelt P := by
    intro entry hentry
    have heq : entry = ("@", each) := List.mem_singleton.mp hentry
    rw [heq]
    exact ⟨hr.all, hr.each⟩
  have hstart : (Reading.start source).Sound (.ofText source) P :=
    ⟨.refl, hroot, by simp [Reading.start], by simp [Reading.start]⟩
  rw [parse_eq] at h
  obtain ⟨reading, hreading, hfinish⟩ := exists_of_bind_ok h
  cases hrun : Parser.statements (source.length + 1) (.start source) with
  | error error =>
    rw [hrun] at hreading
    cases hreading
  | ok result =>
    obtain ⟨-, hfinal, -⟩ := (Parser.upholds_statements hr).ok hstart hrun
    rw [hrun] at hreading
    cases hreading
    rw [Reading.finish] at hfinish
    split at hfinish
    · cases hfinish
    · cases hfinish
      exact ⟨hfinal.scope, bodyNamed_iff.mpr hfinal.body⟩

end Script

end CircuitScript
