import Mathlib.Logic.Relation
/-!
Outcomes of actions. An action works on a state: it succeeds, with a result and a new state, or it
fails with an error. What is sure of its outcome is put together along its structure, in the same
way for all kinds of actions.
-/
namespace CircuitScript

/-- Where two computations in a row succeed, each of them does. -/
theorem exists_of_bind_ok {ε α β : Type} {result : Except ε α} {next : α → Except ε β} {b : β}
    (h : (result >>= next) = .ok b) : ∃ a, result = .ok a ∧ next a = .ok b := by
  cases result with
  | error error => cases h
  | ok a => exact ⟨a, rfl, h⟩

/-- Where two computations in a row fail, one of them does. -/
theorem error_of_bind {ε α β : Type} {result : Except ε α} {next : α → Except ε β} {error : ε}
    (h : (result >>= next) = .error error) :
    result = .error error ∨ ∃ a, result = .ok a ∧ next a = .error error := by
  cases result with
  | error found =>
    cases h
    exact .inl rfl
  | ok a => exact .inr ⟨a, rfl, h⟩

/-- A failure ends an action and leaves the state in which it arose. -/
theorem run_bind_outcome {σ ε α β : Type} {action : ExceptT ε (StateM σ) α}
    {next : α → ExceptT ε (StateM σ) β} {state : σ} :
    (action >>= next).run state =
      match action.run state with
      | (.ok a, after) => (next a).run after
      | (.error error, after) => (.error error, after) := by
  change (ExceptT.bind action next).run state = _
  unfold ExceptT.bind ExceptT.mk
  change (match action.run state with | (r, after) => (ExceptT.bindCont next r).run after) = _
  rcases action.run state with ⟨_ | a, after⟩ <;> rfl

/-- Actions on states that may fail: whatever their kind, they can be read as one function of the
state. -/
class Fallible (σ ε : outParam Type) (m : Type → Type) [Monad m] [MonadStateOf σ m]
    [MonadExceptOf ε m] where
  outcome {α : Type} (action : m α) (state : σ) : Except ε (α × σ)
  outcome_pure {α : Type} (a : α) (state : σ) : outcome (pure a : m α) state = .ok (a, state)
  outcome_bind {α β : Type} (action : m α) (next : α → m β) (state : σ) :
    outcome (action >>= next) state =
      (outcome action state >>= fun result => outcome (next result.1) result.2)
  outcome_get (state : σ) : outcome (get : m σ) state = .ok (state, state)
  outcome_throw {α : Type} (error : ε) (state : σ) :
    outcome (throw error : m α) state = .error error

export Fallible (outcome)

instance {σ ε : Type} : Fallible σ ε (StateT σ (Except ε)) where
  outcome action state := action state
  outcome_pure _ _ := rfl
  outcome_bind _ _ _ := rfl
  outcome_get _ := rfl
  outcome_throw _ _ := rfl

instance {σ : Type} : Fallible σ Unit (StateT σ Option) where
  outcome action state :=
    match action state with
    | some result => .ok result
    | none => .error ()
  outcome_pure _ _ := rfl
  outcome_bind action next state := by
    show (match Option.bind (action state) fun result => next result.1 result.2 with
      | some result => Except.ok result
      | none => .error ()) = _
    cases action state <;> rfl
  outcome_get _ := rfl
  outcome_throw _ _ := rfl

instance {σ ε : Type} : Fallible σ ε (ExceptT ε (StateM σ)) where
  outcome action state :=
    match action.run state with
    | (.ok a, after) => .ok (a, after)
    | (.error error, _) => .error error
  outcome_pure _ _ := rfl
  outcome_bind action next state := by
    rw [run_bind_outcome]
    rcases action.run state with ⟨_ | a, after⟩ <;> rfl
  outcome_get _ := rfl
  outcome_throw _ _ := rfl

theorem outcome_eq_ok_iff_some {σ α : Type} {action : StateT σ Option α} {state after : σ} {a : α} :
    outcome action state = .ok (a, after) ↔ action state = some (a, after) := by
  show (match action state with
    | some result => Except.ok result
    | none => .error ()) = _ ↔ _
  cases action state <;> simp

theorem outcome_eq_ok_iff {σ ε α : Type} {action : ExceptT ε (StateM σ) α} {state after : σ}
    {a : α} : outcome action state = .ok (a, after) ↔ action.run state = (.ok a, after) := by
  show (match action.run state with
    | (.ok a, after) => Except.ok (a, after)
    | (.error error, _) => .error error) = _ ↔
      @Eq (Except ε α × σ) (action.run state) (.ok a, after)
  rcases action.run state with ⟨_ | b, middle⟩ <;> simp

theorem outcome_eq_error_iff {σ ε α : Type} {action : ExceptT ε (StateM σ) α} {state : σ}
    {error : ε} :
    outcome action state = .error error ↔ ∃ after, action.run state = (.error error, after) := by
  show (match action.run state with
    | (.ok a, after) => Except.ok (a, after)
    | (.error error, _) => .error error) = _ ↔
      ∃ after, @Eq (Except ε α × σ) (action.run state) (.error error, after)
  rcases action.run state with ⟨_ | b, middle⟩ <;> simp

variable {σ ε τ α β : Type} {m : Type → Type} [Monad m] [MonadStateOf σ m] [MonadExceptOf ε m]
  [Fallible σ ε m] {action : m α} {next : α → m β} {I I' I'' : σ → Prop} {J J' : α → σ → Prop}
  {K : β → σ → Prop} {E : ε → Prop} {Q Q' : α → Prop} {R : β → Prop} {step : τ → τ → Prop}
  {view : σ → τ}

/-- In a state with one property, the action comes out in a state that it relates to its result, or
fails with an error of some kind. -/
structure Outcome (I : σ → Prop) (action : m α) (J : α → σ → Prop) (E : ε → Prop) : Prop where
  ok : ∀ {before after : σ} {a : α}, I before → outcome action before = .ok (a, after) → J a after
  error : ∀ {before : σ} {error : ε}, I before → outcome action before = .error error → E error

namespace Outcome

theorem pure {a : α} (h : ∀ state, I state → J a state) :
    Outcome I (Pure.pure a : m α) J E where
  ok := by
    intro before after b hi hb
    rw [Fallible.outcome_pure] at hb
    cases hb
    exact h before hi
  error := by
    intro before error hi he
    rw [Fallible.outcome_pure] at he
    cases he

theorem bind (h : Outcome I action J E) (h' : ∀ a, Outcome (J a) (next a) K E) :
    Outcome I (action >>= next) K E where
  ok := by
    intro before after b hi hb
    rw [Fallible.outcome_bind] at hb
    obtain ⟨⟨a, middle⟩, ha, hb⟩ := exists_of_bind_ok hb
    exact (h' a).ok (h.ok hi ha) hb
  error := by
    intro before error hi he
    rw [Fallible.outcome_bind] at he
    rcases error_of_bind he with he | ⟨⟨a, middle⟩, ha, he⟩
    · exact h.error hi he
    · exact (h' a).error (h.ok hi ha) he

theorem throw {error : ε} (h : E error) : Outcome I (MonadExcept.throw error : m α) J E where
  ok := by
    intro before after a hi ha
    rw [Fallible.outcome_throw] at ha
    cases ha
  error := by
    intro before found hi he
    rw [Fallible.outcome_throw] at he
    cases he
    exact h

theorem get {L : σ → σ → Prop} (h : ∀ state, I state → L state state) :
    Outcome I (MonadState.get : m σ) L E where
  ok := by
    intro before after a hi ha
    rw [Fallible.outcome_get] at ha
    cases ha
    exact h before hi
  error := by
    intro before error hi he
    rw [Fallible.outcome_get] at he
    cases he

theorem imp (h : Outcome I action J E) (hi : ∀ a state, J a state → J' a state) :
    Outcome I action J' E :=
  ⟨fun hb ha => hi _ _ (h.ok hb ha), h.error⟩

/-- What is known beside the state is known for good. -/
theorem of_fact {fact : Prop} (h : fact → Outcome I action J E) :
    Outcome (fun state => fact ∧ I state) action J E :=
  ⟨fun hi => (h hi.1).ok hi.2, fun hi => (h hi.1).error hi.2⟩

end Outcome

/-- Where the first property holds and the action succeeds, the second one holds afterwards. -/
abbrev Ensures (I : σ → Prop) (action : m α) (J : α → σ → Prop) : Prop :=
  Outcome I action J fun _ => True

namespace Ensures

theorem of_ok (h : ∀ {before after : σ} {a : α}, I before →
    outcome action before = .ok (a, after) → J a after) : Ensures I action J :=
  ⟨h, fun _ _ => trivial⟩

theorem throw {error : ε} : Ensures I (MonadExcept.throw error : m α) J := Outcome.throw trivial

/-- What follows a failure is not reached. -/
theorem throw_bind {error : ε} : Ensures I (MonadExcept.throw error >>= next) K :=
  Outcome.bind (J := fun _ _ => False) throw fun _ => of_ok fun h => h.elim

end Ensures

/-- From a state with one property the action leads to a state with another one, and its result has
a third. -/
abbrev Leads (I : σ → Prop) (Q : α → Prop) (action : m α) (I' : σ → Prop) : Prop :=
  Ensures I action fun a state => Q a ∧ I' state

namespace Leads

theorem pure {a : α} (h : Q a) : Leads I Q (Pure.pure a : m α) I :=
  Outcome.pure fun _ hi => ⟨h, hi⟩

theorem bind (h : Leads I Q action I') (h' : ∀ a, Q a → Leads I' R (next a) I'') :
    Leads I R (action >>= next) I'' :=
  Outcome.bind h fun a => .of_fact (h' a)

theorem imp (h : Leads I Q action I') (hi : ∀ a, Q a → Q' a) : Leads I Q' action I' :=
  Outcome.imp h fun a _ hs => ⟨hi a hs.1, hs.2⟩

theorem get : Leads I I (MonadState.get : m σ) I := Outcome.get fun _ hi => ⟨hi, hi⟩

theorem ite {other : m α} {condition : Prop} [Decidable condition] (h : Leads I Q action I')
    (h' : Leads I Q other I') : Leads I Q (if condition then action else other) I' := by
  split
  · exact h
  · exact h'

end Leads

/-- The action keeps a property of the state, and its result has another one. -/
abbrev Keeps (I : σ → Prop) (Q : α → Prop) (action : m α) : Prop := Leads I Q action I

/-- Whatever the action gives has the property. -/
abbrev Gives (Q : α → Prop) (action : m α) : Prop := Keeps (fun _ => True) Q action

theorem Gives.of_forall (h : ∀ a, Q a) : Gives Q action := .of_ok fun {_ _ a} _ _ => ⟨h a, trivial⟩

/-- Nothing is known of the first result. -/
theorem Leads.andThen (h : ∀ a, Gives R (next a)) : Gives R (action >>= next) :=
  bind (Q := fun _ => True) (Gives.of_forall fun _ => trivial) fun a _ => h a

/-- The action keeps a property of the state, in a part of which it takes some steps, and its result
has another property. If it fails, the error is of some kind. -/
structure Travels (I : σ → Prop) (step : τ → τ → Prop) (view : σ → τ) (E : ε → Prop) (action : m α)
    (Q : α → Prop) : Prop where
  ok : ∀ {before after : σ} {a : α}, I before → outcome action before = .ok (a, after) →
    Relation.ReflTransGen step (view before) (view after) ∧ I after ∧ Q a
  error : ∀ {before : σ} {error : ε}, I before → outcome action before = .error error → E error

namespace Travels

/-- From wherever the steps began, the action goes on with them. -/
theorem iff_outcome : Travels I step view E action Q ↔ ∀ start,
    Outcome (fun state => Relation.ReflTransGen step start (view state) ∧ I state) action
      (fun a state => Q a ∧ Relation.ReflTransGen step start (view state) ∧ I state) E := by
  constructor
  · intro h start
    refine ⟨fun {before after a} hb ha => ?_, fun hb he => h.error hb.2 he⟩
    obtain ⟨hsteps, hafter, hq⟩ := h.ok hb.2 ha
    exact ⟨hq, hb.1.trans hsteps, hafter⟩
  · intro h
    refine ⟨fun {before after a} hi ha => ?_, fun hi he => (h _).error ⟨.refl, hi⟩ he⟩
    obtain ⟨hq, hsteps, hafter⟩ := (h (view before)).ok ⟨.refl, hi⟩ ha
    exact ⟨hsteps, hafter, hq⟩

theorem pure {a : α} (h : Q a) : Travels I step view E (Pure.pure a : m α) Q :=
  iff_outcome.mpr fun _ => .pure fun _ hs => ⟨h, hs⟩

theorem throw {error : ε} (h : E error) :
    Travels I step view E (MonadExcept.throw error : m α) Q :=
  iff_outcome.mpr fun _ => .throw h

theorem get : Travels I step view E (MonadState.get : m σ) I :=
  iff_outcome.mpr fun _ => .get fun _ hs => ⟨hs.2, hs⟩

theorem bind (h : Travels I step view E action Q)
    (h' : ∀ a, Q a → Travels I step view E (next a) R) :
    Travels I step view E (action >>= next) R := by
  refine iff_outcome.mpr fun start => (iff_outcome.mp h start).bind fun a => .of_fact fun hq => ?_
  exact iff_outcome.mp (h' a hq) start

theorem imp (h : Travels I step view E action Q) (hi : ∀ a, Q a → Q' a) :
    Travels I step view E action Q' :=
  iff_outcome.mpr fun start => (iff_outcome.mp h start).imp fun a _ hs => ⟨hi a hs.1, hs.2⟩

end Travels

end CircuitScript
