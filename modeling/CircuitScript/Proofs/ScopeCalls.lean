import CircuitScript.Proofs.ScratchHygiene
/-!
Scopes over whole runs of calls. Each call is made on one of the scopes there are, in any order, and
a child is a snapshot that goes its own way from then on. What a scope has reserved is just what was
handed out on the way to it, so no signal is handed out twice on one way.
-/
namespace CircuitScript

namespace Scope

variable {scope after : Scope} {avoid : NameSet} {name word target : String}

inductive Call
  | bind (word target : String)
  | allocate (avoid : NameSet)
  | child
  deriving DecidableEq, Repr, Inhabited

/-- What a call does on its scope; it gives the scratch signal that it hands out. Taking a snapshot
leaves the scope as it is. -/
def Call.action : Call → Scratch (Option String)
  | bind word target => do
    set (← (← get).bind word target)
    return none
  | allocate avoid => some <$> Scratch.fresh avoid
  | child => return none

/-- A scope, and what was handed out on the way to it: by the scopes around it up to the snapshots,
and by itself since then. A scope that goes on after a snapshot is on another way than the
snapshot. -/
structure Branch where
  scope : Scope
  handed : List String
  deriving DecidableEq, Repr, Inhabited

def Branch.call (branch : Branch) (call : Call) : Branch :=
  match call.action.runIn branch.scope with
  | (.ok (some name), after) => ⟨after, branch.handed ++ [name]⟩
  | (_, after) => ⟨after, branch.handed⟩

/-- A call on one of some scopes, given by its number. A child comes behind those that are there. -/
def callOn (all : List Branch) (i : Nat) (call : Call) : List Branch :=
  match all[i]? with
  | none => all
  | some branch =>
    match call with
    | .child => all ++ [branch]
    | _ => all.set i (branch.call call)

/-- The scopes after some calls, the latest first. The scope of the script is number 0. -/
def branches : List (Nat × Call) → List Branch
  | [] => [⟨.root, []⟩]
  | (i, call) :: earlier => callOn (branches earlier) i call

/-- The signal may be handed out. -/
structure Spare (scope : Scope) (avoid : NameSet) (name : String) : Prop where
  unused : scope.reserved.contains name = false
  noKey : scope.aliases.hasKey name = false
  noTarget : scope.aliases.hasValue name = false
  allowed : avoid.contains name = false

/-- The signal is the first of the pool that may be handed out. -/
def FirstSpare (scope : Scope) (avoid : NameSet) (name : String) : Prop :=
  ∃ before behind, scratchSignals = before ++ name :: behind ∧ scope.Spare avoid name ∧
    ∀ other ∈ before, ¬ scope.Spare avoid other

theorem spare_iff :
    (!scope.isTaken name && !avoid.contains name) = true ↔ scope.Spare avoid name := by
  simp only [isTaken, Bool.and_eq_true, Bool.not_eq_true', Bool.or_eq_false_iff]
  constructor
  · rintro ⟨⟨⟨hunused, hkey⟩, htarget⟩, hallowed⟩
    exact ⟨hunused, hkey, htarget, hallowed⟩
  · intro h
    exact ⟨⟨⟨h.unused, h.noKey⟩, h.noTarget⟩, h.allowed⟩

theorem nextScratch?_eq_some_iff :
    scope.nextScratch? avoid = some name ↔ scope.FirstSpare avoid name := by
  rw [nextScratch?, List.find?_eq_some_iff_append, FirstSpare]
  simp only [spare_iff, Bool.not_eq_true', ← Bool.not_eq_true]
  grind

theorem nextScratch?_eq_none_iff :
    scope.nextScratch? avoid = none ↔ ∀ name ∈ scratchSignals, ¬ scope.Spare avoid name := by
  rw [nextScratch?, List.find?_eq_none]
  simp only [spare_iff]

theorem bind_eq_error_iff : (∃ error, scope.bind word target = .error error) ↔
    scope.reserved.contains (scope.resolve target) = true := by
  rw [Scope.bind]
  split
  · next h => exact iff_of_true ⟨_, rfl⟩ h
  · next h => exact iff_of_false (by rintro ⟨error, ⟨⟩⟩) h

namespace Call

theorem runIn_bind_of_ok (h : scope.bind word target = .ok after) :
    (bind word target).action.runIn scope = (.ok none, after) := by
  rw [action, Scratch.runIn_bind, Scratch.runIn_get]
  dsimp only
  rw [h]
  rfl

theorem runIn_bind_of_error {error : Error} (h : scope.bind word target = .error error) :
    (bind word target).action.runIn scope = (.error error, scope) := by
  rw [action, Scratch.runIn_bind, Scratch.runIn_get]
  dsimp only
  rw [h]
  rfl

theorem runIn_allocate_of_some (h : scope.nextScratch? avoid = some name) :
    (allocate avoid).action.runIn scope = (.ok (some name), scope.reserve [name]) := by
  rw [action, map_eq_pure_bind, Scratch.runIn_bind, Scratch.fresh, Scratch.runIn_bind,
    Scratch.runIn_get]
  dsimp only
  rw [Scope.allocate, h]
  rfl

theorem runIn_allocate_of_none (h : scope.nextScratch? avoid = none) :
    (allocate avoid).action.runIn scope = (.error Scratch.shortage, scope) := by
  rw [action, map_eq_pure_bind, Scratch.runIn_bind, Scratch.fresh, Scratch.runIn_bind,
    Scratch.runIn_get]
  dsimp only
  rw [Scope.allocate, h]
  rfl

/-- A call fails and changes nothing, or it binds an alias, hands out the next signal, or takes a
snapshot. -/
theorem action_cases (call : Call) (scope : Scope) :
    (∃ error, call.action.runIn scope = (.error error, scope)) ∨
    (∃ word target after, call = .bind word target ∧ scope.bind word target = .ok after ∧
      call.action.runIn scope = (.ok none, after)) ∨
    (∃ avoid name, call = .allocate avoid ∧ scope.nextScratch? avoid = some name ∧
      call.action.runIn scope = (.ok (some name), scope.reserve [name])) ∨
    call = .child ∧ call.action.runIn scope = (.ok none, scope) := by
  cases call with
  | bind word target =>
    cases h : scope.bind word target with
    | error error => exact .inl ⟨error, runIn_bind_of_error h⟩
    | ok after => exact .inr (.inl ⟨word, target, after, rfl, h, runIn_bind_of_ok h⟩)
  | allocate avoid =>
    cases h : scope.nextScratch? avoid with
    | none => exact .inl ⟨_, runIn_allocate_of_none h⟩
    | some name => exact .inr (.inr (.inl ⟨avoid, name, rfl, h, runIn_allocate_of_some h⟩))
  | child => exact .inr (.inr (.inr ⟨rfl, rfl⟩))

theorem runIn_of_error {call : Call} {error : Error}
    (h : (call.action.runIn scope).1 = .error error) :
    call.action.runIn scope = (.error error, scope) := by
  rcases call.action_cases scope with
    ⟨_, hrun⟩ | ⟨_, _, _, -, -, hrun⟩ | ⟨_, _, -, -, hrun⟩ | ⟨-, hrun⟩
  · rw [hrun] at h ⊢
    rw [← h]
  all_goals
    rw [hrun] at h
    cases h

theorem bind_fails_iff :
    (∃ error, ((bind word target).action.runIn scope).1 = .error error) ↔
      scope.reserved.contains (scope.resolve target) = true := by
  rw [← bind_eq_error_iff]
  cases h : scope.bind word target with
  | error error => simp [runIn_bind_of_error h]
  | ok after => simp [runIn_bind_of_ok h]

/-- A word that is bound stands for what its target stood for, and nothing else changes. -/
theorem resolve_of_bind {result : Option String}
    (h : (bind word target).action.runIn scope = (.ok result, after)) :
    after.reserved = scope.reserved ∧
      ∀ x, after.resolve x = if x = word then scope.resolve target else scope.resolve x := by
  cases hbind : scope.bind word target with
  | error error =>
    rw [runIn_bind_of_error hbind] at h
    cases h
  | ok bound =>
    rw [runIn_bind_of_ok hbind] at h
    cases h
    refine ⟨reserved_bind hbind, fun x => ?_⟩
    rw [Scope.bind] at hbind
    split at hbind
    · cases hbind
    · cases hbind
      rw [resolve, Dict.get?_insert]
      split <;> rfl

theorem allocate_eq_ok_iff :
    ((allocate avoid).action.runIn scope).1 = .ok (some name) ↔ scope.FirstSpare avoid name := by
  rw [← nextScratch?_eq_some_iff]
  cases h : scope.nextScratch? avoid with
  | none => simp [runIn_allocate_of_none h]
  | some found => simp [runIn_allocate_of_some h]

theorem allocate_fails_iff :
    (∃ error, ((allocate avoid).action.runIn scope).1 = .error error) ↔
      ∀ name ∈ scratchSignals, ¬ scope.Spare avoid name := by
  rw [← nextScratch?_eq_none_iff]
  cases h : scope.nextScratch? avoid with
  | none => simp [runIn_allocate_of_none h]
  | some found => simp [runIn_allocate_of_some h]

end Call

namespace Branch

/-- What is reserved is what was handed out: signals of the pool, each once and none of them behind
an alias. -/
structure Sound (branch : Branch) : Prop where
  clean : branch.scope.Clean
  distinct : branch.handed.Nodup
  scratch : ∀ name ∈ branch.handed, name ∈ scratchSignals
  reserved : ∀ name, branch.scope.reserved.contains name = true ↔ name ∈ branch.handed

variable {branch : Branch}

theorem sound_root : Sound ⟨.root, []⟩ where
  clean := clean_root
  distinct := List.nodup_nil
  scratch := by simp
  reserved := by simp [root]

theorem Sound.reserve (h : branch.Sound) (hn : branch.scope.nextScratch? avoid = some name) :
    Sound ⟨branch.scope.reserve [name], branch.handed ++ [name]⟩ := by
  have hout : branch.scope.HandsOut avoid [name] := handsOut_nil.concat hn
  have hnew : name ∉ branch.handed := by
    rw [← h.reserved, hout.unused name (List.mem_singleton_self name)]
    exact Bool.false_ne_true
  refine ⟨h.clean.reserve hout, ?_, ?_, fun other => ?_⟩
  · refine List.nodup_append.mpr ⟨h.distinct, hout.distinct, ?_⟩
    rintro other hold _ hlast rfl
    exact hnew (List.mem_singleton.mp hlast ▸ hold)
  · intro other hother
    exact (List.mem_append.mp hother).elim (h.scratch other) (hout.scratch other)
  · rw [reserved_reserve, Bool.or_eq_true, h.reserved, List.contains_iff_mem, List.mem_append]
    exact or_comm

theorem Sound.call (h : branch.Sound) (call : Call) : (branch.call call).Sound := by
  rcases call.action_cases branch.scope with
    ⟨error, hrun⟩ | ⟨word, target, after, -, hbind, hrun⟩ | ⟨avoid, name, -, hnext, hrun⟩ | ⟨-, hrun⟩
  · rw [Branch.call, hrun]
    exact h
  · rw [Branch.call, hrun]
    have hreserved := reserved_bind hbind
    exact ⟨h.clean.bind hbind, h.distinct, h.scratch, fun name => hreserved ▸ h.reserved name⟩
  · rw [Branch.call, hrun]
    exact h.reserve hnext
  · rw [Branch.call, hrun]
    exact h

end Branch

variable {all : List Branch} {branch : Branch} {i j : Nat} {call : Call}

/-- A call leaves behind what was there, and what it made of one of them. -/
theorem mem_callOn (h : branch ∈ callOn all i call) :
    branch ∈ all ∨ ∃ before ∈ all, branch = before.call call := by
  rw [callOn] at h
  split at h
  · exact .inl h
  · next before hbefore =>
    have hmem := List.mem_of_getElem? hbefore
    split at h
    · rcases List.mem_append.mp h with h | h
      · exact .inl h
      · rw [List.mem_singleton.mp h]
        exact .inl hmem
    · rcases List.mem_or_eq_of_mem_set h with h | h
      · exact .inl h
      · exact .inr ⟨before, hmem, h⟩

theorem getElem?_callOn (hj : j < all.length) (hne : j ≠ i) : (callOn all i call)[j]? = all[j]? := by
  rw [callOn]
  split
  · rfl
  · split
    · exact List.getElem?_append_left hj
    · exact List.getElem?_set_ne hne.symm

theorem callOn_of_error {error : Error} (hi : all[i]? = some branch)
    (h : (call.action.runIn branch.scope).1 = .error error) : callOn all i call = all := by
  obtain ⟨hlt, hget⟩ := List.getElem?_eq_some_iff.mp hi
  have hsame : branch.call call = branch := by
    rw [Branch.call, Call.runIn_of_error h]
  rw [callOn, hi]
  dsimp only
  split
  · cases h
  · rw [hsame, ← hget, List.set_getElem_self]

theorem sound_branches (calls : List (Nat × Call)) : ∀ branch ∈ branches calls, branch.Sound := by
  induction calls with
  | nil =>
    intro branch h
    rw [List.mem_singleton.mp h]
    exact Branch.sound_root
  | cons numbered earlier ih =>
    intro branch h
    rcases mem_callOn h with hold | ⟨before, hbefore, rfl⟩
    · exact ih branch hold
    · exact (ih before hbefore).call _

/-- After any calls, each scope has reserved just what was handed out on the way to it: signals of
the pool, all different, and no alias stands for one. The next call on it hands out the first signal
that is neither in use nor known by an alias nor to be avoided, and fails if there is none; an alias
is refused just for a target in use. A call that fails changes nothing, and none changes any other
scope. -/
theorem calls_outcome (calls : List (Nat × Call)) :
    (∀ branch ∈ branches calls,
      (∀ name, branch.scope.aliases.hasValue name = true →
        branch.scope.reserved.contains name = false) ∧
      (∀ name, branch.scope.reserved.contains name = true → name ∈ scratchSignals) ∧
      branch.handed.Nodup ∧
      (∀ name, name ∈ branch.handed ↔ branch.scope.reserved.contains name = true) ∧
      (∀ avoid name, ((Call.allocate avoid).action.runIn branch.scope).1 = .ok (some name) ↔
        branch.scope.FirstSpare avoid name) ∧
      (∀ avoid, (∃ error, ((Call.allocate avoid).action.runIn branch.scope).1 = .error error) ↔
        ∀ name ∈ scratchSignals, ¬ branch.scope.Spare avoid name) ∧
      (∀ word target,
        (∃ error, ((Call.bind word target).action.runIn branch.scope).1 = .error error) ↔
          branch.scope.reserved.contains (branch.scope.resolve target) = true) ∧
      ∀ word target result after,
        (Call.bind word target).action.runIn branch.scope = (.ok result, after) →
          after.reserved = branch.scope.reserved ∧ ∀ x, after.resolve x =
            if x = word then branch.scope.resolve target else branch.scope.resolve x) ∧
    ∀ i call,
      (∀ branch error, (branches calls)[i]? = some branch →
        (call.action.runIn branch.scope).1 = .error error →
          branches ((i, call) :: calls) = branches calls) ∧
      ∀ j < (branches calls).length, j ≠ i →
        (branches ((i, call) :: calls))[j]? = (branches calls)[j]? := by
  refine ⟨fun branch hbranch => ?_, fun i call => ⟨fun branch error => callOn_of_error, ?_⟩⟩
  · have hsound := sound_branches calls branch hbranch
    exact ⟨hsound.clean, fun name hname => hsound.scratch name ((hsound.reserved name).mp hname),
      hsound.distinct, fun name => (hsound.reserved name).symm, fun _ _ => Call.allocate_eq_ok_iff,
      fun _ => Call.allocate_fails_iff, fun _ _ => Call.bind_fails_iff,
      fun _ _ _ _ => Call.resolve_of_bind⟩
  · exact fun j hj hne => getElem?_callOn hj hne

/-- Two children of the scope of the script, the second with a child of its own and an alias that is
named like a scratch signal. -/
theorem calls_outcome_siblings :
    let calls : List (Nat × Call) := [(3, .allocate .empty), (2, .child), (2, .allocate .empty),
      (2, .bind "signal_B" "x"), (0, .child), (1, .allocate .empty), (0, .child),
      (0, .bind "x" "@"), (0, .allocate .empty)]
    (branches calls).map Branch.handed = [["signal_A"], ["signal_A", "signal_B"],
      ["signal_A", "signal_C"], ["signal_A", "signal_C", "signal_D"]] ∧
    (∀ branch ∈ branches calls, branch.handed.Nodup) ∧
    branches ((3, .bind "mine" "signal_A") :: calls) = branches calls := by
  intro calls
  refine ⟨by decide +kernel, fun branch h => ((calls_outcome calls).1 branch h).2.2.1, ?_⟩
  obtain ⟨branch, hbranch, hused⟩ : ∃ branch, (branches calls)[3]? = some branch ∧
      branch.scope.reserved.contains (branch.scope.resolve "signal_A") = true :=
    ⟨_, rfl, by decide +kernel⟩
  obtain ⟨error, herror⟩ := Call.bind_fails_iff.mpr hused
  exact ((calls_outcome calls).2 3 (.bind "mine" "signal_A")).1 branch error hbranch herror

end Scope

end CircuitScript
