import CircuitScript.Proofs.Outcome
import CircuitScript.Scope
/-!
Handing out scratch signals. What an action draws from the pool is a front part of what is free, so
signals drawn one after the other never meet.
-/
namespace CircuitScript

variable {α β : Type} {avoid : NameSet} {scope : Scope} {x : String} {names rest : List String}

namespace Scope

/-- The scratch signals that can still be handed out, in order. -/
def free (scope : Scope) (avoid : NameSet) : List String :=
  scratchSignals.filter fun name => !scope.isTaken name && !avoid.contains name

/-- The scope after some scratch signals have been handed out. -/
def reserve (scope : Scope) (names : List String) : Scope :=
  { scope with reserved := names.foldl NameSet.insert scope.reserved }

theorem nodup_free : (scope.free avoid).Nodup :=
  (show scratchSignals.Nodup by decide).filter _

theorem not_avoided_of_mem_free (h : x ∈ scope.free avoid) : avoid.contains x = false := by
  simp only [free, List.mem_filter, Bool.and_eq_true, Bool.not_eq_true'] at h
  exact h.2.2

theorem reserve_append (first second : List String) :
    scope.reserve (first ++ second) = (scope.reserve first).reserve second := by
  simp [reserve]

theorem isTaken_reserve_singleton (name : String) :
    (scope.reserve [name]).isTaken x = (x == name || scope.isTaken x) := by
  simp [isTaken, reserve, Bool.or_assoc]

theorem free_reserve_singleton {name : String} (h : scope.free avoid = name :: rest) :
    (scope.reserve [name]).free avoid = rest := by
  have hn := @nodup_free avoid scope
  have hf : (scope.reserve [name]).free avoid = (scope.free avoid).filter (· != name) := by
    simp only [free, List.filter_filter, isTaken_reserve_singleton]
    congr 1
    funext x
    cases hx : x == name <;> simp [hx, bne]
  rw [h, List.nodup_cons] at hn
  rw [hf, h]
  simp only [List.filter_cons, bne_self_eq_false, Bool.false_eq_true, if_false]
  apply List.filter_eq_self.mpr
  intro y hy
  exact bne_iff_ne.mpr (ne_of_mem_of_not_mem hy hn.1)

/-- What is handed out is no longer free, and all else still is. -/
theorem free_reserve (h : scope.free avoid = names ++ rest) :
    (scope.reserve names).free avoid = rest := by
  induction names generalizing scope with
  | nil => exact h
  | cons name names ih =>
    rw [List.cons_append] at h
    exact ih (free_reserve_singleton h)

end Scope

namespace Scratch

@[simp] theorem runIn_get : (get : Scratch Scope).runIn scope = (.ok scope, scope) := rfl

@[simp] theorem runIn_lift (outcome : Except Error α) :
    (liftM outcome : Scratch α).runIn scope = (outcome, scope) := rfl

theorem runIn_bind (action : Scratch α) (next : α → Scratch β) :
    (action >>= next).runIn scope =
      match action.runIn scope with
      | (.ok a, after) => (next a).runIn after
      | (.error error, after) => (.error error, after) := by
  unfold runIn
  rw [run_bind_outcome]
  rcases action.run scope with ⟨_ | a, after⟩ <;> rfl

/-- No scratch signal is left. -/
def shortage : Error := .exhausted scratchSignals.length none

/-- The action takes the next `n` free scratch signals and gives a result that `post` relates to
them. It fails only if fewer are free. -/
structure Draws (avoid : NameSet) (n : Nat) (post : List String → α → Prop) (action : Scratch α) :
    Prop where
  enough : ∀ {scope : Scope} {names rest : List String}, scope.free avoid = names ++ rest →
    names.length = n →
      ∃ a, action.runIn scope = (.ok a, scope.reserve names) ∧ post names a
  short : ∀ {scope : Scope}, (scope.free avoid).length < n →
    ∃ after, action.runIn scope = (.error shortage, after)

namespace Draws

variable {n m : Nat} {post : List String → α → Prop} {action : Scratch α}

theorem pure {a : α} (h : post [] a) : Draws avoid 0 post (Pure.pure a) where
  enough := by
    intro scope names rest _ hn
    rw [List.length_eq_zero_iff] at hn
    subst hn
    exact ⟨a, rfl, h⟩
  short := by
    intro scope h
    omega

theorem fresh : Draws avoid 1 (fun names name => names = [name]) (Scratch.fresh avoid) where
  enough := by
    intro scope names rest hf hn
    obtain ⟨name, rfl⟩ := List.length_eq_one_iff.mp hn
    have hs : scope.nextScratch? avoid = some name := by
      rw [Scope.nextScratch?, ← List.head?_filter]
      exact congrArg List.head? hf
    refine ⟨name, ?_, rfl⟩
    simp only [Scratch.fresh, runIn_bind, runIn_get, Scope.allocate, hs]
    rfl
  short := by
    intro scope h
    have hs : scope.nextScratch? avoid = none := by
      rw [Scope.nextScratch?, ← List.head?_filter]
      exact congrArg List.head? (List.length_eq_zero_iff.mp (Nat.lt_one_iff.mp h))
    refine ⟨scope, ?_⟩
    simp only [Scratch.fresh, runIn_bind, runIn_get, Scope.allocate, hs]
    rfl

/-- Two actions in a row draw neighbouring parts of the pool. -/
theorem bind {next : α → Scratch β} {post' : List String → β → Prop}
    (h : Draws avoid n post action)
    (h' : ∀ first a, post first a →
      Draws avoid m (fun second b => post' (first ++ second) b) (next a)) :
    Draws avoid (n + m) post' (action >>= next) where
  enough := by
    intro scope names rest hf hn
    have hs : names = names.take n ++ names.drop n := (List.take_append_drop n names).symm
    rw [hs, List.append_assoc] at hf
    obtain ⟨a, hr, hp⟩ := h.enough hf (by rw [List.length_take]; omega)
    obtain ⟨b, hr', hp'⟩ := (h' _ a hp).enough (Scope.free_reserve hf)
      (by rw [List.length_drop]; omega)
    rw [← hs] at hp'
    refine ⟨b, ?_, hp'⟩
    rw [runIn_bind, hr]
    simp only
    rw [hr', ← Scope.reserve_append, ← hs]
  short := by
    intro scope hl
    by_cases hn : (scope.free avoid).length < n
    · obtain ⟨after, hr⟩ := h.short hn
      exact ⟨after, by rw [runIn_bind, hr]⟩
    · have hf := (List.take_append_drop n (scope.free avoid)).symm
      obtain ⟨a, hr, hp⟩ := h.enough hf (by rw [List.length_take]; omega)
      have hd : ((scope.reserve ((scope.free avoid).take n)).free avoid).length < m := by
        rw [Scope.free_reserve hf, List.length_drop]
        omega
      obtain ⟨after, hr'⟩ := (h' _ a hp).short hd
      exact ⟨after, by rw [runIn_bind, hr]; exact hr'⟩

theorem bind_lift {next : α → Scratch β} {post' : List String → β → Prop} {a : α}
    {outcome : Except Error α} (ho : outcome = .ok a) (h : Draws avoid n post' (next a)) :
    Draws avoid n post' (liftM outcome >>= next) where
  enough := by
    intro scope names rest hf hn
    rw [ho, runIn_bind, runIn_lift]
    exact h.enough hf hn
  short := by
    intro scope hl
    rw [ho, runIn_bind, runIn_lift]
    exact h.short hl

theorem bind_get {next : Scope → Scratch β} {post' : List String → β → Prop}
    (h : ∀ scope, Draws avoid n post' (next scope)) : Draws avoid n post' (get >>= next) where
  enough := by
    intro scope names rest hf hn
    rw [runIn_bind, runIn_get]
    exact (h scope).enough hf hn
  short := by
    intro scope hl
    rw [runIn_bind, runIn_get]
    exact (h scope).short hl

theorem map (f : α → β) (h : Draws avoid n post action) :
    Draws avoid n (fun names b => ∃ a, b = f a ∧ post names a) (f <$> action) where
  enough := by
    intro scope names rest hf hn
    obtain ⟨a, hr, hp⟩ := h.enough hf hn
    refine ⟨f a, ?_, a, rfl, hp⟩
    rw [map_eq_pure_bind, runIn_bind, hr]
    rfl
  short := by
    intro scope hl
    obtain ⟨after, hr⟩ := h.short hl
    exact ⟨after, by rw [map_eq_pure_bind, runIn_bind, hr]⟩

theorem imp {post' : List String → α → Prop} (h : Draws avoid n post action)
    (hp : ∀ names a, post names a → post' names a) : Draws avoid n post' action where
  enough := by
    intro scope names rest hf hn
    obtain ⟨a, hr, ha⟩ := h.enough hf hn
    exact ⟨a, hr, hp names a ha⟩
  short := h.short

/-- What is drawn is known to differ, and to be allowed. -/
theorem of_distinct
    (h : Draws avoid n (fun names a => names.Nodup → (∀ x ∈ names, avoid.contains x = false) →
      post names a) action) : Draws avoid n post action where
  enough := by
    intro scope names rest hf hn
    obtain ⟨a, hr, ha⟩ := h.enough hf hn
    refine ⟨a, hr, ha ?_ ?_⟩
    · have := @Scope.nodup_free avoid scope
      rw [hf] at this
      exact (List.nodup_append.mp this).1
    · intro x hx
      apply @Scope.not_avoided_of_mem_free avoid scope
      rw [hf]
      exact List.mem_append_left _ hx
  short := h.short

/-- How an action ends that draws from the pool. -/
theorem outcome (h : Draws avoid n post action) (scope : Scope) :
    (∃ a names, n ≤ (scope.free avoid).length ∧ names.Nodup ∧
      (∀ x ∈ names, avoid.contains x = false) ∧
      action.runIn scope = (.ok a, scope.reserve names) ∧ post names a) ∨
    ((scope.free avoid).length < n ∧ ∃ after, action.runIn scope = (.error shortage, after)) := by
  by_cases hn : n ≤ (scope.free avoid).length
  · left
    have hd : Draws avoid n (fun names a => names.Nodup ∧
        (∀ x ∈ names, avoid.contains x = false) ∧ post names a) action :=
      of_distinct (h.imp fun names a hp hnd hav => ⟨hnd, hav, hp⟩)
    have hf := (List.take_append_drop n (scope.free avoid)).symm
    obtain ⟨a, hr, hnd, hav, hp⟩ := hd.enough hf (by rw [List.length_take]; omega)
    exact ⟨a, _, hn, hnd, hav, hr, hp⟩
  · exact .inr ⟨by omega, h.short (by omega)⟩

end Draws

end Scratch

end CircuitScript
