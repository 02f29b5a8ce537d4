import CircuitScript.Proofs.ScratchTaking
import CircuitScript.Proofs.ScriptShape
/-!
Scratch signals across nesting. A block works on a copy of the scope around it, in which the scratch
signals of all conditions around it are still in use; so nothing inside a conditional ever writes
over what its condition holds.
-/
namespace CircuitScript

variable {context : Context} {start scope after kept : Scope} {node inner : Node}
  {body block : List Node} {name word target : String}

/-- The statements that a body was written in: what each of them adds to the body, in which scope it
was read and in which scope it leaves the rest. -/
inductive Written : Context → Scope → List Node → Scope → Prop
  | nil {context : Context} {start : Scope} : Written context start [] start
  | bind {context : Context} {start scope after : Scope} {body : List Node} {word target : String}
      (h : Written context start body scope) (hb : scope.bind word target = .ok after) :
      Written context start body after
  | step {context : Context} {start scope : Scope} {body : List Node} {step : Step}
      (h : Written context start body scope) (hc : context.takesSteps = true) :
      Written context start (body ++ [.step step]) scope
  | assign {context : Context} {start scope : Scope} {body : List Node} {name : String} {expr : Expr}
      {node : Node} (h : Written context start body scope) (hc : context.takesSteps = false)
      (ha : assignment (scope.resolve name) expr scope = .ok node) :
      Written context start (body ++ [node]) scope
  | conditional {context : Context} {start scope inner kept : Scope} {body block : List Node}
      {loops : Bool} {expr : Expr} {test : Node} {out : String}
      (h : Written context start body scope)
      (ht : expr.condition.runIn scope = (.ok (test, out), inner))
      (hb : Written (.conditional loops) inner block kept) :
      Written context start (body ++ [.conditional loops kept test out block]) scope
  | chain {start scope kept : Scope} {body block : List Node}
      (h : Written .script start body scope) (hb : Written .chain scope block kept) :
      Written .script start (body ++ [.chain kept block]) scope
  | parallel {start scope kept : Scope} {body block : List Node}
      (h : Written .chain start body scope) (hb : Written .parallel scope block kept) :
      Written .chain start (body ++ [.parallel kept block]) scope
  | series {start scope kept : Scope} {body block : List Node}
      (h : Written .parallel start body scope) (hb : Written .series scope block kept) :
      Written .parallel start (body ++ [.series kept block]) scope

/-- The members of a block. -/
def Node.members : Node → List Node
  | .chain _ body | .parallel _ body | .series _ body | .conditional _ _ _ _ body => body
  | _ => []

/-- A construct stands in a body, at any depth. -/
inductive Inside (node : Node) : List Node → Prop
  | here {body : List Node} (h : node ∈ body) : Inside node body
  | deeper {outer : Node} {body : List Node} (h : outer ∈ body) (hi : Inside node outer.members) :
      Inside node body

/-- The scratch signals of a conditional, which are those of its condition, and of an assignment,
which its series writes on its way. -/
def Node.scratch : Node → List String
  | .conditional _ _ test out _ => out :: test.temps
  | .parallel _ members => members.flatMap Node.innerOuts
  | _ => []

theorem inside_concat (h : Inside node (body ++ [inner])) :
    Inside node body ∨ node = inner ∨ Inside node inner.members := by
  cases h with
  | here h =>
    rcases List.mem_append.mp h with h | h
    · exact .inl (.here h)
    · exact .inr (.inl (List.mem_singleton.mp h))
  | deeper h hi =>
    rcases List.mem_append.mp h with h | h
    · exact .inl (.deeper h hi)
    · rw [List.mem_singleton.mp h] at hi
      exact .inr (.inr hi)

theorem not_inside_nil : ¬ Inside node [] := by
  intro h
  cases h with
  | here h => cases h
  | deeper h _ => cases h

theorem inside_map_step {steps : List Step} (h : Inside node (steps.map .step)) :
    ∃ step, node = .step step := by
  cases h with
  | here h =>
    obtain ⟨step, -, rfl⟩ := List.mem_map.mp h
    exact ⟨step, rfl⟩
  | deeper h hi =>
    obtain ⟨step, -, rfl⟩ := List.mem_map.mp h
    exact absurd hi not_inside_nil

/-- Under an assignment there are only steps and one series of steps. -/
theorem inside_assignmentBody {steps : List Step} (h : Inside node (assignmentBody target steps scope)) :
    (∃ step, node = .step step) ∨ ∃ block, node = .series scope block := by
  obtain ⟨inner, rest, hb⟩ : ∃ inner rest : List Step, assignmentBody target steps scope =
      .step .passthrough :: .series scope (inner.map .step) :: rest.map .step := by
    rcases assignmentBody_cases target steps scope with ⟨step, k, -, -, hb⟩ | hb
    · exact ⟨[⟨.signal target, .mul, .constant (k - 1), target⟩], [], hb⟩
    · exact ⟨steps, [⟨.signal target, .mul, .constant (-1), target⟩], hb⟩
  rw [hb] at h
  cases h with
  | here h =>
    rcases List.mem_cons.mp h with rfl | h
    · exact .inl ⟨_, rfl⟩
    · rcases List.mem_cons.mp h with rfl | h
      · exact .inr ⟨_, rfl⟩
      · exact .inl (inside_map_step (.here h))
  | deeper h hi =>
    rcases List.mem_cons.mp h with rfl | h
    · exact absurd hi not_inside_nil
    · rcases List.mem_cons.mp h with rfl | h
      · exact .inl (inside_map_step hi)
      · exact .inl (inside_map_step (.deeper h hi))

theorem inside_assignment {expr : Expr} (ha : assignment target expr scope = .ok inner)
    (h : Inside node inner.members) :
    (∃ step, node = .step step) ∨ ∃ kept block, node = .series kept block := by
  rw [assignment] at ha
  split at ha
  · cases ha
    rcases inside_assignmentBody h with hs | ⟨block, hs⟩
    · exact .inl hs
    · exact .inr ⟨_, block, hs⟩
  · cases ha

theorem hasValue_place {key value : String} {list : List (String × String)}
    (h : (Dict.place key value list).any (fun entry => entry.2 == name) = true) :
    name = value ∨ list.any (fun entry => entry.2 == name) = true := by
  induction list with
  | nil => grind [Dict.place]
  | cons entry rest ih => grind [Dict.place]

namespace Scope

theorem clean_root : root.Clean := by
  intro name _
  exact NameSet.contains_empty name

theorem reserved_bind (h : scope.bind word target = .ok after) : after.reserved = scope.reserved := by
  rw [Scope.bind] at h
  split at h
  · cases h
  · cases h
    rfl

/-- An alias is refused if it would stand for a scratch signal in use. -/
theorem Clean.bind (hc : scope.Clean) (h : scope.bind word target = .ok after) : after.Clean := by
  rw [Scope.bind] at h
  split at h
  · cases h
  · next hfree =>
    cases h
    intro name hv
    rcases hasValue_place hv with rfl | hv
    · exact Bool.eq_false_iff.mpr hfree
    · exact hc name hv

end Scope

namespace Written

/-- What a body reserves is not seen after it. -/
theorem reserved_eq (h : Written context start body scope) : scope.reserved = start.reserved := by
  induction h with
  | nil => rfl
  | bind _ hb ih => rw [Scope.reserved_bind hb, ih]
  | step _ _ ih => exact ih
  | assign _ _ _ ih => exact ih
  | conditional _ _ _ ih _ => exact ih
  | chain _ _ ih _ | parallel _ _ ih _ | series _ _ ih _ => exact ih

/-- No scope that a program keeps has an alias for a scratch signal in use. -/
theorem clean (h : Written context start body scope) (hs : start.Clean) :
    scope.Clean ∧ ∀ kept ∈ bodyScopes body, kept.Clean := by
  -- What is added at the end keeps the scopes of its own members, and its own.
  have hconcat : ∀ {body : List Node} {node : Node}, (∀ kept ∈ bodyScopes body, kept.Clean) →
      (∀ kept ∈ node.scopes, kept.Clean) → ∀ kept ∈ bodyScopes (body ++ [node]), kept.Clean := by
    intro body node hbody hnode kept hk
    rcases mem_bodyScopes_append.mp hk with hk | hk
    · exact hbody kept hk
    · rw [bodyScopes_singleton] at hk
      exact hnode kept hk
  have hblock : ∀ {own : Scope} {block : List Node},
      own.Clean ∧ (∀ kept ∈ bodyScopes block, kept.Clean) →
      ∀ kept ∈ own :: bodyScopes block, kept.Clean := by
    intro own block hb kept hk
    rcases List.mem_cons.mp hk with rfl | hk
    · exact hb.1
    · exact hb.2 kept hk
  induction h with
  | nil => exact ⟨hs, by simp [bodyScopes]⟩
  | bind _ hb ih => exact ⟨(ih hs).1.bind hb, (ih hs).2⟩
  | step _ _ ih => exact ⟨(ih hs).1, hconcat (ih hs).2 (by simp [Node.scopes])⟩
  | assign _ _ ha ih =>
    obtain ⟨members, rfl, -, hkept⟩ := assignment_takes ha
    refine ⟨(ih hs).1, hconcat (ih hs).2 (hblock ⟨(ih hs).1, fun kept hk => ?_⟩)⟩
    exact (hkept kept hk).clean (ih hs).1
  | @conditional _ _ _ _ _ _ block _ _ test _ _ ht _ ih ihb =>
    obtain ⟨names, rfl, hperm, hhands, hkept⟩ := Expr.condition_takes ht
    have hown := ihb ((ih hs).1.reserve (hhands.perm hperm.symm))
    refine ⟨(ih hs).1, hconcat (ih hs).2 fun kept hk => ?_⟩
    rcases List.mem_cons.mp hk with rfl | hk
    · exact hown.1
    · rcases List.mem_append.mp hk with hk | hk
      · exact (hkept kept hk).clean (ih hs).1
      · exact hown.2 kept hk
  | chain _ _ ih ihb | parallel _ _ ih ihb | series _ _ ih ihb =>
    exact ⟨(ih hs).1, hconcat (ih hs).2 (hblock (ihb (ih hs).1))⟩

theorem scratch_of_inside_assignment {expr : Expr} (ha : assignment target expr scope = .ok inner)
    (h : Inside node inner.members) : node.scratch = [] := by
  rcases inside_assignment ha h with ⟨step, rfl⟩ | ⟨kept, block, rfl⟩
  · rfl
  · rfl

/-- In the body of a conditional, nothing uses scratch signals that were in use before. -/
theorem unused_of_inside {loops : Bool} (h : Written context start body scope)
    (hc : context = .conditional loops) (hi : Inside node body) :
    ∀ name ∈ node.scratch, start.reserved.contains name = false := by
  induction h generalizing loops with
  | nil => exact absurd hi not_inside_nil
  | bind _ _ ih => exact ih hc hi
  | step _ hsteps _ =>
    subst hc
    cases hsteps
  | assign hw _ ha ih =>
    intro name hname
    rcases inside_concat hi with hi | rfl | hi
    · exact ih hc hi name hname
    · obtain ⟨members, rfl, hhands, -⟩ := assignment_takes ha
      rw [← hw.reserved_eq]
      exact hhands.unused name hname
    · rw [scratch_of_inside_assignment ha hi] at hname
      cases hname
  | conditional hw ht _ ih ihb =>
    intro name hname
    obtain ⟨names, rfl, -, hhands, -⟩ := Expr.condition_takes ht
    rcases inside_concat hi with hi | rfl | hi
    · exact ih hc hi name hname
    · rw [← hw.reserved_eq]
      exact hhands.unused name hname
    · have hunused := ihb rfl hi name hname
      rw [Scope.reserved_reserve, Bool.or_eq_false_iff] at hunused
      rw [← hw.reserved_eq]
      exact hunused.2
  | chain | parallel | series => cases hc

/-- In the body of a conditional, nothing uses the scratch signals of its condition. -/
theorem separate {loops : Bool} {test : Node} {out : String} (h : Written context start body scope)
    (ho : Inside (.conditional loops kept test out block) body) (hi : Inside inner block) :
    ∀ name ∈ inner.scratch, name ∉ out :: test.temps := by
  induction h with
  | nil => exact absurd ho not_inside_nil
  | bind _ _ ih => exact ih ho
  | step _ _ ih =>
    rcases inside_concat ho with ho | ho | ho
    · exact ih ho
    · cases ho
    · exact absurd ho not_inside_nil
  | assign _ _ ha ih =>
    rcases inside_concat ho with ho | rfl | ho
    · exact ih ho
    · obtain ⟨members, hm, -⟩ := assignment_takes ha
      cases hm
    · rcases inside_assignment ha ho with ⟨step, hs⟩ | ⟨kept, block, hs⟩
      · cases hs
      · cases hs
  | conditional _ ht hb ih ihb =>
    rcases inside_concat ho with ho | heq | ho
    · exact ih ho
    -- The body starts in a scope where all that the condition took is reserved.
    · cases heq
      intro name hname hout
      obtain ⟨names, rfl, hperm, -⟩ := Expr.condition_takes ht
      have hunused := hb.unused_of_inside rfl hi name hname
      rw [Scope.reserved_reserve, Bool.or_eq_false_iff] at hunused
      have hmem := List.contains_iff_mem.mpr (hperm.mem_iff.mpr hout)
      rw [hunused.1] at hmem
      cases hmem
    · exact ihb ho
  | chain _ _ ih ihb | parallel _ _ ih ihb | series _ _ ih ihb =>
    rcases inside_concat ho with ho | ho | ho
    · exact ih ho
    · cases ho
    · exact ihb ho

end Written

/-- The scope inside the innermost of some open blocks. -/
def scopeOf (script : Script) : List OpenBlock → Scope
  | [] => script.scope
  | block :: _ => block.scope

/-- A block begins in the scope around it. Inside a conditional the scratch signals of its condition
are in use as well. -/
def Opening.Begins (context : Context) (around start : Scope) : Opening → Prop
  | .chain => context = .script ∧ start = around
  | .parallel => context = .chain ∧ start = around
  | .series => context = .parallel ∧ start = around
  | .conditional _ test out => ∃ expr : Expr, expr.condition.runIn around = (.ok (test, out), start)

/-- Open blocks began in the scopes around them, and what they hold was written there. -/
def BlocksWritten (script : Script) : List OpenBlock → Prop
  | [] => Written .script .root script.body script.scope
  | block :: outer =>
    (∃ start, block.opening.Begins (contextOf outer) (scopeOf script outer) start ∧
      Written block.opening.context start block.body block.scope) ∧
    BlocksWritten script outer

/-- Closing a block is one more statement of the body around it. -/
theorem written_close {block : OpenBlock} {outer : Scope}
    (hb : block.opening.Begins context outer after)
    (hw : Written block.opening.context after block.body block.scope)
    (h : Written context start body outer) : Written context start (body ++ [block.close]) outer := by
  obtain ⟨opening, scope, members⟩ := block
  cases opening with
  | chain =>
    obtain ⟨rfl, rfl⟩ := hb
    exact h.chain hw
  | parallel =>
    obtain ⟨rfl, rfl⟩ := hb
    exact h.parallel hw
  | series =>
    obtain ⟨rfl, rfl⟩ := hb
    exact h.series hw
  | conditional loops test out =>
    obtain ⟨expr, hrun⟩ := hb
    exact h.conditional hrun hw

namespace Reading

variable {reading : Reading}

/-- What was read so far is what its statements make of it, and the next one is read in a context and
a scope. -/
structure WrittenIn (context : Context) (scope : Scope) (reading : Reading) : Prop where
  written : BlocksWritten reading.script reading.blocks
  context : reading.context = context
  scope : reading.scope = scope

theorem scope_eq : reading.scope = scopeOf reading.script reading.blocks := by
  rw [Reading.scope]
  cases reading.blocks <;> rfl

theorem written_push (h : reading.WrittenIn context scope)
    (hn : ∀ {start body}, Written context start body scope → Written context start (body ++ [node]) scope) :
    BlocksWritten (reading.push node).script (reading.push node).blocks := by
  obtain ⟨hw, rfl, rfl⟩ := h
  rw [context_eq, scope_eq] at hn
  rw [push]
  cases hb : reading.blocks with
  | nil =>
    rw [hb] at hw hn
    exact hn hw
  | cons block outer =>
    rw [hb] at hw hn
    obtain ⟨⟨start, hbegins, hblock⟩, houter⟩ := hw
    exact ⟨⟨start, hbegins, hn hblock⟩, houter⟩

theorem written_withScope (h : reading.WrittenIn context scope)
    (hs : scope.bind word target = .ok after) :
    BlocksWritten (reading.withScope after).script (reading.withScope after).blocks := by
  obtain ⟨hw, rfl, rfl⟩ := h
  rw [scope_eq] at hs
  rw [withScope]
  cases hb : reading.blocks with
  | nil =>
    rw [hb] at hw hs
    exact Written.bind hw hs
  | cons block outer =>
    rw [hb] at hw hs
    obtain ⟨⟨start, hbegins, hblock⟩, houter⟩ := hw
    exact ⟨⟨start, hbegins, hblock.bind hs⟩, houter⟩

theorem written_open {opening : Opening} (h : reading.WrittenIn context scope)
    (ho : opening.Begins context scope start) :
    BlocksWritten reading.script (⟨opening, start, []⟩ :: reading.blocks) := by
  obtain ⟨hw, rfl, rfl⟩ := h
  rw [context_eq, scope_eq] at ho
  exact ⟨⟨start, ho, .nil⟩, hw⟩

end Reading

namespace Parser

/-- After an action, all that was read is what its statements make of it. -/
abbrev Writes (context : Context) (scope : Scope) (action : Parser Unit) : Prop :=
  Ensures (Reading.WrittenIn context scope) action
    fun _ reading => BlocksWritten reading.script reading.blocks

theorem writtenIn_cursor {reading : Reading} {cursor : Cursor}
    (h : reading.WrittenIn context scope) :
    Reading.WrittenIn context scope { reading with cursor := cursor } :=
  ⟨h.written, h.context, h.scope⟩

theorem writtenIn_skim {α : Type} {read : Scan α} :
    Ensures (Reading.WrittenIn context scope) (scan read) fun _ => Reading.WrittenIn context scope :=
  ensures_skim fun _ _ => writtenIn_cursor

theorem writtenIn_get :
    Ensures (Reading.WrittenIn context scope) (get : Parser Reading)
      fun found reading => found.scope = scope ∧ reading.WrittenIn context scope :=
  Outcome.get fun _ h => ⟨h.scope, h⟩

theorem writes_openBlock {opening : Opening} {allowed : Bool} {place : Location}
    (ho : allowed = true → opening.Begins context scope scope) :
    Writes context scope (openBlock opening allowed place) := by
  refine .bind writtenIn_get fun found => .of_fact fun _ => ?_
  dsimp only
  split
  · next hallowed =>
    refine .bind writtenIn_skim fun _ => ensures_modify fun reading h => ?_
    have hopen := Reading.written_open h (ho hallowed)
    rwa [← h.scope] at hopen
  · exact Ensures.throw_bind

theorem writes_conditional {loops : Bool} : Writes context scope (conditional loops) := by
  refine .bind writtenIn_skim fun read => .bind keeps_located fun expr => .of_fact fun _ => ?_
  refine .bind writtenIn_get fun found => .of_fact fun hs => ?_
  subst hs
  dsimp only
  cases hrun : expr.condition.runIn found.scope with
  | mk result after =>
    refine .bind keeps_located fun ⟨test, out⟩ => .of_fact fun htest => ?_
    subst htest
    refine .bind writtenIn_skim fun _ => ensures_modify fun reading h => ?_
    exact Reading.written_open h ⟨expr, hrun⟩

theorem writes_bindAlias {place : Location} : Writes context scope (bindAlias place) := by
  refine .bind writtenIn_skim fun word => .bind writtenIn_skim fun _ => ?_
  refine .bind writtenIn_skim fun target => .bind writtenIn_get fun found => .of_fact fun hs => ?_
  subst hs
  refine .bind keeps_located fun after => .of_fact fun hbind => ?_
  exact ensures_modify fun reading h => Reading.written_withScope h hbind

theorem writtenIn_assignOperator :
    Ensures (Reading.WrittenIn context scope) assignOperator
      fun _ => Reading.WrittenIn context scope := by
  refine .bind writtenIn_skim fun _ => ?_
  split
  · exact .bind writtenIn_skim fun _ => .pure fun _ h => h
  · exact .pure fun _ h => h

theorem writes_assign (hc : context.takesSteps = false) : Writes context scope (assign name) := by
  refine .bind writtenIn_get fun found => .of_fact fun hs => ?_
  subst hs
  refine .bind writtenIn_assignOperator fun compound => ?_
  refine .bind writtenIn_skim fun read => .bind keeps_located fun value => .of_fact fun _ => ?_
  refine .bind writtenIn_get fun later => .of_fact fun hsame => ?_
  rw [hsame]
  refine .bind keeps_located fun node => .of_fact fun hnode => ensures_modify fun reading h => ?_
  exact Reading.written_push h fun hw => hw.assign hc hnode

theorem writtenIn_operand :
    Ensures (Reading.WrittenIn context scope) operand fun _ => Reading.WrittenIn context scope := by
  refine .bind writtenIn_skim fun word => ?_
  split
  · exact .bind writtenIn_get fun found => .of_fact fun _ => .pure fun _ h => h
  · exact .pure fun _ h => h

theorem writes_step (hc : context.takesSteps = true) : Writes context scope (step name) := by
  have hpush : ∀ step : Step, Writes context scope
      (modify fun reading => reading.push (.step step)) := fun step =>
    ensures_modify fun reading h => Reading.written_push h fun hw => hw.step hc
  refine .bind writtenIn_get fun found => .of_fact fun _ => ?_
  dsimp only
  refine .bind writtenIn_assignOperator fun compound => ?_
  split
  · refine .bind writtenIn_operand fun right => ?_
    rw [pure_bind]
    exact hpush _
  · refine .bind writtenIn_operand fun left => .bind writtenIn_skim fun operator => ?_
    split
    · refine .bind writtenIn_operand fun right => ?_
      rw [pure_bind]
      exact hpush _
    · rw [pure_bind]
      exact hpush _

theorem writes_statement {keyword : String} {place : Location} :
    Ensures (fun reading => BlocksWritten reading.script reading.blocks) (statement keyword place)
      fun _ reading => BlocksWritten reading.script reading.blocks := by
  refine .bind (Outcome.get (L := fun found => Reading.WrittenIn found.context found.scope)
    fun _ h => ⟨h, rfl, rfl⟩) fun found => ?_
  generalize found.context = context
  generalize found.scope = scope
  dsimp only
  split
  · exact writes_openBlock fun h => ⟨by simpa using h, rfl⟩
  · exact writes_openBlock fun h => ⟨by simpa using h, rfl⟩
  · exact writes_openBlock fun h => ⟨by simpa using h, rfl⟩
  · exact writes_conditional
  · exact writes_conditional
  · exact writes_bindAlias
  · split
    · next hc => exact writes_step hc
    · next hc => exact writes_assign (Bool.eq_false_iff.mpr hc)

theorem writes_close {place : Location} :
    Ensures (fun reading => BlocksWritten reading.script reading.blocks) (close place)
      fun _ reading => BlocksWritten reading.script reading.blocks := by
  refine .bind (Outcome.get (L := fun found _ => BlocksWritten found.script found.blocks)
    fun _ h => h) fun found => ?_
  split
  · next block outer hb =>
    refine Ensures.of_ok ?_
    rintro reading after _ h ⟨⟩
    rw [hb] at h
    obtain ⟨⟨start, hbegins, hblock⟩, houter⟩ := h
    have hin : Reading.WrittenIn (Reading.context { found with blocks := outer })
        (Reading.scope { found with blocks := outer }) { found with blocks := outer } :=
      ⟨houter, rfl, rfl⟩
    refine Reading.written_push hin ?_
    rw [Reading.context_eq, Reading.scope_eq]
    exact fun hw => written_close hbegins hblock hw
  · exact Ensures.throw

theorem writes_statements {fuel : Nat} :
    Ensures (fun reading => BlocksWritten reading.script reading.blocks) (statements fuel)
      fun _ reading => BlocksWritten reading.script reading.blocks := by
  have hskim : ∀ {γ : Type} {read : Scan γ},
      Ensures (fun reading => BlocksWritten reading.script reading.blocks) (scan read)
        fun _ reading => BlocksWritten reading.script reading.blocks := fun {γ read} =>
    ensures_skim fun _ _ h => h
  induction fuel with
  | zero => exact .pure fun _ h => h
  | succ fuel ih =>
    refine .bind hskim fun _ => ?_
    refine .bind (Outcome.get (L := fun _ reading => BlocksWritten reading.script reading.blocks)
      fun _ h => h) fun found => ?_
    dsimp only
    split
    · exact .pure fun _ h => h
    · refine .bind hskim fun closes => ?_
      split
      · exact .bind writes_close fun _ => ih
      · exact .bind hskim fun keyword => .bind writes_statement fun _ => ih

end Parser

namespace Script

variable {source : String} {script : Script}

/-- Every program that is accepted is what its statements make of it. -/
theorem written_of_parse (h : parse source = .ok script) :
    Written .script .root script.body script.scope := by
  obtain ⟨⟨_, reading⟩, hrun, h⟩ := exists_of_bind_ok h
  have hkept := fun hstart => Parser.writes_statements.ok hstart hrun
  have hwritten := hkept Written.nil
  dsimp only at h
  split at h
  · cases h
  · next hb =>
    cases h
    rwa [hb] at hwritten

/-- Scratch signals never get in each other's way, in any program that is accepted. No scope that it
keeps has an alias for one in use. Whatever stands in the body of a conditional, at any depth, uses
none of those that the condition uses. Every condition and every assignment is given different ones,
of which none is known as an alias or as what one stands for where it is read, and none is read by
what is left of its expression once it is simplified, or is the target. -/
theorem scratch_signals_apart (h : parse source = .ok script) :
    Written .script .root script.body script.scope ∧
    (∀ scope ∈ script.scope :: bodyScopes script.body, scope.Clean) ∧
    (∀ loops kept test out block, Inside (.conditional loops kept test out block) script.body →
      ∀ inner, Inside inner block → ∀ name ∈ inner.scratch, name ∉ out :: test.temps) ∧
    (∀ (expr : Expr) scope test out after, expr.condition.runIn scope = (.ok (test, out), after) →
      scope.HandsOut (expr.simplify scope.aliases .logical).names (out :: test.temps)) ∧
    ∀ target expr scope node, assignment target expr scope = .ok node →
      scope.HandsOut ((expr.simplify scope.aliases .arithmetic).names.insert target) node.scratch := by
  have hwritten := written_of_parse h
  have hclean := hwritten.clean Scope.clean_root
  refine ⟨hwritten, ?_, ?_, ?_, ?_⟩
  · intro scope hs
    rcases List.mem_cons.mp hs with rfl | hs
    · exact hclean.1
    · exact hclean.2 scope hs
  · intro loops kept test out block ho inner hi
    exact hwritten.separate ho hi
  · intro expr scope test out after hrun
    obtain ⟨names, -, -, hhands, -⟩ := Expr.condition_takes hrun
    exact hhands
  · intro target expr scope node ha
    obtain ⟨members, rfl, hhands, -⟩ := assignment_takes ha
    exact hhands

/-- A loop around a conditional around an assignment, all of which need scratch signals; one of them
is an alias. -/
def nestedText : String :=
  "alias keep = signal_B while a + b > c * d \x7b if (a - b) * c == d \x7b a = (b + c) * (a - d) \x7d \x7d"

theorem scratch_signals_apart_nestedText :
    ∃ script, parse nestedText = .ok script ∧
      script.body.map Node.scratch = [["signal_A", "signal_C", "signal_D"]] ∧
      (script.body.flatMap Node.members).map Node.scratch = [["signal_E", "signal_G", "signal_F"]] ∧
      ((script.body.flatMap Node.members).flatMap Node.members).map Node.scratch =
        [["signal_H", "signal_I"]] ∧
      ∀ loops kept test out block, Inside (.conditional loops kept test out block) script.body →
        ∀ inner, Inside inner block → ∀ name ∈ inner.scratch, name ∉ out :: test.temps := by
  obtain ⟨script, hp, hq⟩ : ∃ script, parse nestedText = .ok script ∧
      (script.body.map Node.scratch = [["signal_A", "signal_C", "signal_D"]] ∧
      (script.body.flatMap Node.members).map Node.scratch = [["signal_E", "signal_G", "signal_F"]] ∧
      ((script.body.flatMap Node.members).flatMap Node.members).map Node.scratch =
        [["signal_H", "signal_I"]]) := exists_parse (by decide +kernel)
  exact ⟨script, hp, hq.1, hq.2.1, hq.2.2, (scratch_signals_apart hp).2.2.1⟩

/-- A condition from which one of its names drops out. -/
def droppedText : String := "if signal_A && 0 || b \x7b \x7d"

def droppedExpr : Expr := .plain .or (.plain .and (.name "signal_A") (.int 0)) (.name "b")

def droppedTest : Node := .compare .eq true (.value (.signal "b")) (.value (.constant 0)) "signal_A"

/-- A name that drops out of a condition is not kept from it. The text of the condition reads
`signal_A`, and the condition writes its result to it. -/
theorem dropped_name_handed_out :
    ∃ script kept, parse droppedText = .ok script ∧
      script.body = [.conditional false kept droppedTest "signal_A" []] ∧
      (Expr.ofText "signal_A && 0 || b").toOption = some droppedExpr ∧
      (droppedExpr.condition.runIn .root).1.toOption = some (droppedTest, "signal_A") ∧
      ¬Scope.root.HandsOut droppedExpr.names ("signal_A" :: droppedTest.temps) := by
  obtain ⟨script, hparse, hbody⟩ : ∃ script, parse droppedText = .ok script ∧
      script.body = [.conditional false (Scope.root.reserve ["signal_A"]) droppedTest "signal_A"
        []] := exists_parse (by decide +kernel)
  refine ⟨script, _, hparse, hbody, by decide +kernel, by decide +kernel, fun h => ?_⟩
  exact absurd (h.allowed "signal_A" List.mem_cons_self) (by decide +kernel)

end Script

end CircuitScript
