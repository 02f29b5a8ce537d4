import CircuitScript.Proofs.LayoutPlan
/-!
Laying out as a run of acts. An action that follows a plan, from entities that exist, names entities
that exist, and all that it does to the draft is a run of acts.
-/
namespace CircuitScript.Layout

variable {α β : Type} {draft : Draft} {setting : Setting} {frame : Frame} {color : Color}
  {condition : Condition} {feeds : List Feed} {ids ids' loose : List EntityId}
  {ends : α → List EntityId} {spec : Spec α} {action : Build α}

/-- In any draft where some entities exist, the action is a run of acts, and the entities that its
result names exist afterwards. -/
structure Builds (ids : List EntityId) (ends : α → List EntityId) (action : Build α) : Prop where
  run : ∀ {draft : Draft}, draft.Grounded → draft.Knows ids →
    Acts draft (action.run draft).2 ∧ (action.run draft).2.Knows (ends (action.run draft).1)

namespace Builds

theorem mono (h : Builds ids ends action) (hs : ids ⊆ ids') : Builds ids' ends action :=
  ⟨fun hg hk => h.run hg (hk.mono hs)⟩

theorem pure {a : α} (h : ends a ⊆ ids) : Builds ids ends (Pure.pure a) :=
  ⟨fun _ hk => ⟨.refl, hk.mono h⟩⟩

theorem bind {next : α → Build β} {ends' : β → List EntityId} (h : Builds ids ends action)
    (h' : ∀ a, Builds (ends a ++ ids) ends' (next a)) : Builds ids ends' (action >>= next) := by
  constructor
  intro draft hg hk
  obtain ⟨ha, hr⟩ := h.run hg hk
  have hk' := hr.append (hk.grows (acts_grows ha hg))
  obtain ⟨ha', hr'⟩ := (h' _).run (acts_grounded ha hg) hk'
  exact ⟨ha.trans ha', hr'⟩

/-- An action that only reads is no act at all. -/
theorem of_unchanged (h : ∀ draft, (action.run draft).2 = draft) :
    Builds ids (fun _ => []) action := by
  constructor
  intro draft hg hk
  rw [h]
  exact ⟨.refl, by simp [Draft.Knows]⟩

/-- An action that changes no entity and no route is one act. -/
theorem of_note (hb : ∀ draft, (action.run draft).2.blueprint = draft.blueprint)
    (hr : ∀ draft, (action.run draft).2.routes = draft.routes)
    (hg : ∀ {draft}, draft.Grounded → (action.run draft).2.Grounded) :
    Builds ids (fun _ => []) action :=
  ⟨fun hd _ => ⟨.single (.note (hb _) (hr _) (hg hd)), by simp [Draft.Knows]⟩⟩

end Builds

theorem builds_announce {node : Node} : Builds ids (fun _ => []) (announce frame node) :=
  .of_note (fun _ => rfl) (fun _ => rfl) fun hg => ⟨hg.indexed, hg.poles, hg.requests⟩

theorem builds_relay {tile : Position} : Builds ids (fun id => [id]) (put .relay tile) := by
  constructor
  intro draft hg hk
  refine ⟨.single (.relay draft tile), ?_⟩
  intro id hid
  rw [List.mem_singleton.mp hid]
  show draft.blueprint.size < (draft.blueprint.create .relay tile).2.1.size
  rw [Blueprint.size_create]
  exact Nat.lt_succ_self _

theorem builds_place (hf : frame.Upright) (hs : Feed.entities feeds ⊆ ids) :
    Builds ids (fun id => [id]) (place frame condition feeds) :=
  ⟨fun hg hk => place_spec hf hg (hk.mono hs)⟩

theorem builds_route {first second : Terminal} (hf : frame.Upright) (ha : first.entity ∈ ids)
    (hb : second.entity ∈ ids) : Builds ids (fun _ => []) (route frame first second color) :=
  ⟨fun _ hk => ⟨.single (.route color hf (hk _ ha) (hk _ hb)), by simp [Draft.Knows]⟩⟩

theorem builds_openSlot : Builds ids (fun _ => []) openSlot := by
  refine .of_note (fun _ => rfl) (fun _ => rfl) fun {draft} hg => ?_
  refine ⟨hg.indexed, hg.poles, ?_⟩
  intro readers hm id hid
  have hm' : readers ∈ (draft.requests.push []).toList := hm
  rw [Array.toList_push] at hm'
  rcases List.mem_append.mp hm' with hm' | hm'
  · exact hg.requests readers hm' id hid
  · rw [List.mem_singleton.mp hm'] at hid
    cases hid

theorem builds_closeSlot : Builds ids id closeSlot := by
  constructor
  intro draft hg hk
  constructor
  · refine .single (.note rfl rfl ⟨hg.indexed, hg.poles, ?_⟩)
    intro readers hm
    have hm' : readers ∈ draft.requests.pop.toList := hm
    rw [Array.toList_pop] at hm'
    exact hg.requests readers (List.dropLast_subset _ hm')
  · intro id hid
    have hid' : id ∈ draft.requests.back?.getD [] := hid
    cases hb : draft.requests.back? with
    | none => simp [hb] at hid'
    | some readers =>
      rw [hb] at hid'
      exact hg.requests readers (Array.mem_toList_iff.mpr (Array.mem_of_back? hb)) id hid'

theorem upright_inner {start : Position} {turned staysOn : Bool} (hf : frame.Upright) :
    (frame.inner start feeds turned staysOn).Upright := by
  unfold Frame.Upright Frame.inner
  dsimp only
  split
  · simp only [Position.along, Position.turnLeft, Int.neg_mul_neg]
    rw [Int.add_comm]
    exact hf
  · exact hf

/-- A member is laid out with nothing grown and no poles, and its owner has its poles back after. -/
theorem run_descend {turned staysOn : Bool} {build : Frame → Build (List EntityId)} :
    (descend frame feeds turned staysOn build).run draft =
      let origin := ((here frame).run draft).1
      let inner := (build (frame.inner origin feeds turned staysOn)).run
        { draft with grown := 0, poles := [] }
      let advance :=
        if turned then
          inner.2.blueprint.extentSince draft.blueprint.size origin frame.direction
        else inner.2.grown
      (inner.1, { inner.2 with grown := draft.grown + advance, poles := draft.poles }) := rfl

theorem builds_descend {turned staysOn : Bool} {build : Frame → Build (List EntityId)}
    (h : ∀ start, Builds ids id (build (frame.inner start feeds turned staysOn))) :
    Builds ids id (descend frame feeds turned staysOn build) := by
  constructor
  intro draft hg hk
  rw [run_descend]
  dsimp only
  have hstart : Draft.Grounded { draft with grown := 0, poles := [] } :=
    ⟨hg.indexed, by simp, hg.requests⟩
  have hbegin : Act draft { draft with grown := 0, poles := [] } := .note rfl rfl hstart
  obtain ⟨ha, hr⟩ := (h ((here frame).run draft).1).run hstart hk
  have hgi := acts_grounded ha hstart
  have hgrow := acts_grows ha hstart
  generalize (build (frame.inner ((here frame).run draft).1 feeds turned staysOn)).run
    { draft with grown := 0, poles := [] } = inner at ha hr hgi hgrow ⊢
  refine ⟨.tail (.head hbegin ha) (.note rfl rfl ⟨hgi.indexed, ?_, hgi.requests⟩), hr⟩
  intro pole hp
  exact hgrow.isRelay_of_isRelay (hg.poles pole hp)

/-- A plan is a run of acts. -/
theorem Plan.builds (h : Plan setting frame ids loose ends spec action) :
    frame.Upright → Builds (ids ++ loose) ends action := by
  induction h with
  | imp _ _ ih => exact ih
  | mono _ hs hl ih =>
    exact fun hf => (ih hf).mono (List.append_subset.mpr ⟨List.subset_append_of_subset_left _ hs,
      List.subset_append_of_subset_right _ hl⟩)
  | pure h => exact fun _ => .pure (List.subset_append_of_subset_left _ h)
  | bind _ _ ih ih' =>
    intro hf
    refine (ih hf).bind fun a => ?_
    rw [← List.append_assoc]
    exact ih' a hf
  | announce node => exact fun _ => builds_announce
  | readsRelay hs => exact fun _ => .of_unchanged fun _ => rfl
  | head hc => exact fun _ => builds_relay
  | tail hc => exact fun _ => (Builds.of_unchanged fun _ => rfl).bind fun tile => builds_relay
  | place hs => exact fun hf => builds_place hf (List.subset_append_of_subset_left _ hs)
  | route ha hb => exact fun hf => builds_route hf ha hb
  | descend hi _ ih => exact fun hf => builds_descend fun start => ih start (upright_inner hf)
  | test hi _ _ ih ih' =>
    intro hf
    have htest := builds_descend fun start => ih start (upright_inner hf)
    rw [List.append_nil] at htest
    refine (htest.mono (List.subset_append_left _ _)).bind fun test => (ih' test hf).mono ?_
    intro id hid
    simp only [List.mem_append] at hid ⊢
    grind
  | slot hi _ _ ih ih' =>
    intro hf
    refine builds_openSlot.bind fun slot => (ih slot hf).bind fun a => ?_
    refine (builds_closeSlot.mono (List.nil_subset _)).bind fun readers => (ih' a readers hf).mono ?_
    intro id hid
    simp only [List.mem_append] at hid ⊢
    grind

/-- Where the next construct of a program starts. -/
def startBelow (blueprint : Blueprint) (node : Node) : Position :=
  match blueprint.bounds? with
  | some (_, high) => ⟨0, high.y + node.depth + 2⟩
  | none => .origin

theorem run_lowerAll_cons {node : Node} {rest : List Node} :
    (lowerAll (node :: rest)).run draft =
      let laid := (lower (.outermost (startBelow draft.blueprint node)) node).run
        { draft with grown := 0, poles := [] }
      let others := (lowerAll rest).run laid.2
      (laid.1 ++ others.1, others.2) := by
  rw [lowerAll]
  rfl

theorem builds_reset : Builds ids (fun _ => [])
    (modify fun draft : Draft => { draft with grown := 0, poles := [] }) := by
  refine .of_note (fun _ => rfl) (fun _ => rfl) fun hg => ?_
  exact ⟨hg.indexed, fun pole hp => absurd hp List.not_mem_nil, hg.requests⟩

theorem builds_lowerAll (body : List Node) : Builds [] id (lowerAll body) := by
  induction body with
  | nil => exact .pure (by simp)
  | cons node rest ih =>
    rw [lowerAll]
    refine .bind (.of_unchanged fun _ => rfl) fun draft => ?_
    refine .bind builds_reset fun _ => ?_
    have hplan := fun start =>
      (plan_lower (.outermost start) .anywhere node node.allowed_anywhere).builds rfl
    refine .bind (hplan _) fun ends => ?_
    exact .bind (ih.mono (by simp)) fun more => .pure (by simp)

theorem grounded_empty : Draft.empty.Grounded where
  indexed := by
    intro tile id h
    cases h
  poles := fun pole hp => absurd hp List.not_mem_nil
  requests := fun readers hm => absurd hm List.not_mem_nil

/-- The layout of every program is a run of acts from the empty draft. -/
theorem acts_draft (script : Script) : Acts .empty script.draft.2 :=
  ((builds_lowerAll script.body).run grounded_empty (by simp [Draft.Knows])).1

/-- What holds of the empty draft and is preserved by every act holds of every layout. -/
theorem draft_induction {P : Draft → Prop} (he : P .empty)
    (hP : ∀ {before after}, Act before after → before.Grounded → P before → P after)
    (script : Script) : P script.draft.2 :=
  (acts_preserve hP (acts_draft script) grounded_empty he).2

end CircuitScript.Layout
