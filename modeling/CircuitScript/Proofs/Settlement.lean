import CircuitScript.Proofs.Clearance
/-!
How constructs settle. A construct goes on from where it has grown to; a condition turns down from
there, and its row goes on behind all that the condition has put down. So a construct that starts
where nothing lies ahead of it is laid out on free tiles.
-/
namespace CircuitScript.Layout

variable {α β : Type} {draft before after later : Draft} {frame : Frame} {color : Color}
  {condition : Condition} {feeds : List Feed} {grown grown' : Int}
  {ids ids' loose loose' : List EntityId} {ends : α → List EntityId} {setting : Setting}
  {spec : Spec α} {action : Build α}

/-- Where some entities are settled and others passed, the action lets its construct go on, and the
entities that its result names are settled afterwards. -/
structure Settles (frame : Frame) (ids loose : List EntityId) (ends : α → List EntityId)
    (action : Build α) : Prop where
  run : ∀ {draft : Draft}, draft.Grounded → Fits frame draft.grown draft →
    (∀ id ∈ ids, Settled frame draft.grown draft id) →
    (∀ id ∈ loose, Passed frame draft.grown draft id) →
    Advances frame draft (action.run draft).2 ∧
      ∀ id ∈ ends (action.run draft).1,
        Settled frame (action.run draft).2.grown (action.run draft).2 id

namespace Settles

theorem mono (h : Settles frame ids loose ends action) (hs : ids ⊆ ids') (hl : loose ⊆ loose') :
    Settles frame ids' loose' ends action :=
  ⟨fun hg hf hi hp => h.run hg hf (fun id hid => hi id (hs hid)) fun id hid => hp id (hl hid)⟩

theorem pure {a : α} (h : ends a ⊆ ids) : Settles frame ids loose ends (Pure.pure a) :=
  ⟨fun hg hf hi _ => ⟨.refl hg hf, fun id hid => hi id (h hid)⟩⟩

theorem bind {next : α → Build β} {ends' : β → List EntityId}
    (h : Settles frame ids loose ends action)
    (h' : ∀ a, Settles frame (ends a ++ ids) loose ends' (next a)) :
    Settles frame ids loose ends' (action >>= next) := by
  constructor
  intro draft hg hf hi hp
  obtain ⟨ha, hr⟩ := h.run hg hf hi hp
  have hi' : ∀ id ∈ ends (action.run draft).1 ++ ids,
      Settled frame (action.run draft).2.grown (action.run draft).2 id := by
    intro id hid
    rcases List.mem_append.mp hid with hid | hid
    · exact hr id hid
    · exact (hi id hid).mono ha.extend ha.advance
  obtain ⟨ha', hr'⟩ := (h' _).run ha.grounded ha.fits hi' fun id hid =>
    (hp id hid).mono ha.extend ha.advance
  exact ⟨ha.trans ha', hr'⟩

/-- An action that only reads. -/
theorem of_unchanged (h : ∀ draft, (action.run draft).2 = draft) :
    Settles frame ids loose (fun _ => []) action := by
  constructor
  intro draft hg hf _ _
  rw [h]
  exact ⟨.refl hg hf, by simp⟩

end Settles

theorem fits_announce {node : Node} (h : Fits frame grown draft) :
    Fits frame grown ((announce frame node).run draft).2 := by
  refine ⟨h.tidy, fun event hm => ?_, h.clear, h.readers⟩
  rcases List.mem_cons.mp hm with rfl | hm
  · intro tile a b he
    cases he
  · exact h.quiet event hm

theorem settles_announce {node : Node} :
    Settles frame ids loose (fun _ => []) (announce frame node) := by
  constructor
  intro draft hg hf _ _
  exact ⟨⟨⟨hg.indexed, hg.poles, hg.requests⟩, .refl _, Int.le_refl _, fits_announce hf⟩, by simp⟩

theorem settles_place (ha : frame.Aligned) (hs : Feed.entities feeds ⊆ ids) :
    Settles frame ids loose (fun id => [id]) (place frame condition feeds) := by
  constructor
  intro draft hg hf hi _
  obtain ⟨hadvances, hsettled⟩ := @place_advances draft frame condition feeds ha hg hf
    fun id hid => (hi id (hs hid)).passed
  refine ⟨hadvances, fun id hid => ?_⟩
  rw [List.mem_singleton.mp hid]
  exact hsettled

theorem settles_route {first second : Terminal} (ha : frame.Aligned)
    (hf : first.entity ∈ ids ++ loose) (hs : second.entity ∈ ids ++ loose) :
    Settles frame ids loose (fun _ => []) (route frame first second color) := by
  constructor
  intro draft hg hfits hi hp
  have hpassed : ∀ id ∈ ids ++ loose, Passed frame draft.grown draft id := by
    intro id hid
    rcases List.mem_append.mp hid with hid | hid
    · exact (hi id hid).passed
    · exact hp id hid
  exact ⟨(route_keeps ha hg hfits (hpassed _ hf) (hpassed _ hs)).advances, by simp⟩

theorem spot_inner {staysOn : Bool} :
    (frame.inner (frame.spot grown) feeds false staysOn).spot grown' =
      frame.spot (grown + grown') := by
  simp only [Frame.spot, Frame.inner, Position.scale, Bool.false_eq_true, if_false, Int.mul_add]
  show (⟨frame.start.x + _ + _, frame.start.y + _ + _⟩ : Position) = _
  rw [Int.add_assoc, Int.add_assoc]
  rfl

/-- A member that grows the same way has the tiles ahead of it that its owner had. -/
theorem fits_inner {staysOn : Bool} (ha : frame.Aligned) :
    Fits (frame.inner (frame.spot grown) feeds false staysOn) grown' draft ↔
      Fits frame (grown + grown') draft := by
  have hahead : frame.ahead (frame.spot grown) + grown' =
      frame.ahead frame.start + (grown + grown') := by
    rw [ha.ahead_spot, Int.add_assoc]
  constructor
  · intro h
    refine ⟨h.tidy, h.quiet, fun tile id hfind => ?_, ?_⟩
    · rw [← hahead, ← ha.aside_spot grown]
      exact h.clear tile id hfind
    · rw [← @spot_inner frame feeds grown grown' staysOn]
      exact h.readers
  · intro h
    refine ⟨h.tidy, h.quiet, fun tile id hfind => ?_, ?_⟩
    · have hc := h.clear tile id hfind
      rw [← hahead, ← ha.aside_spot grown] at hc
      exact hc
    · rw [spot_inner]
      exact h.readers

theorem settled_inner {staysOn : Bool} {id : EntityId} (ha : frame.Aligned) :
    Settled (frame.inner (frame.spot grown) feeds false staysOn) grown' draft id ↔
      Settled frame (grown + grown') draft id := by
  show draft.At id (fun tile => frame.ahead tile ≤ frame.ahead (frame.spot grown) + grown' ∧
    frame.aside tile ≤ frame.aside (frame.spot grown)) ↔ _
  rw [ha.ahead_spot, ha.aside_spot, Int.add_assoc]
  exact Iff.rfl

theorem passed_inner {staysOn : Bool} {id : EntityId} (ha : frame.Aligned) :
    Passed (frame.inner (frame.spot grown) feeds false staysOn) grown' draft id ↔
      Passed frame (grown + grown') draft id := by
  show draft.At id (fun tile => frame.ahead tile ≤ frame.ahead (frame.spot grown) + grown') ↔ _
  rw [ha.ahead_spot, Int.add_assoc]
  exact Iff.rfl

theorem run_here : ((here frame).run draft).1 = frame.spot draft.grown := rfl

theorem settles_descend {staysOn : Bool} {build : Frame → Build (List EntityId)}
    (ha : frame.Aligned)
    (h : ∀ start, Settles (frame.inner start feeds false staysOn) ids loose id
      (build (frame.inner start feeds false staysOn))) :
    Settles frame ids loose id (descend frame feeds false staysOn build) := by
  constructor
  intro draft hg hf hi hp
  rw [run_descend, run_here]
  dsimp only
  have hstart : Draft.Grounded { draft with grown := 0, poles := [] } :=
    ⟨hg.indexed, by simp, hg.requests⟩
  have hfits : Fits frame (draft.grown + 0) { draft with grown := 0, poles := [] } := by
    rw [Int.add_zero]
    exact ⟨hf.tidy, hf.quiet, hf.clear, hf.readers⟩
  have hzero : draft.grown ≤ draft.grown + 0 := Int.le_of_eq (Int.add_zero _).symm
  obtain ⟨hadvances, hends⟩ :=
    (h (frame.spot draft.grown)).run hstart
      ((fits_inner ha).mpr hfits)
      (fun id hid => (settled_inner ha).mpr ((hi id hid).mono (.refl _) hzero))
      (fun id hid => (passed_inner ha).mpr ((hp id hid).mono (.refl _) hzero))
  generalize (build (frame.inner (frame.spot draft.grown) feeds false staysOn)).run
    { draft with grown := 0, poles := [] } = inner at hadvances hends ⊢
  obtain ⟨hgrounded, hextend, hgrown, hfits⟩ := hadvances
  have hfits := (fits_inner ha).mp hfits
  refine ⟨⟨⟨hgrounded.indexed, fun pole hpole => ?_, hgrounded.requests⟩, hextend, ?_,
    ⟨hfits.tidy, hfits.quiet, hfits.clear, hfits.readers⟩⟩, ?_⟩
  · exact hextend.grows.isRelay_of_isRelay (hg.poles pole hpole)
  · exact Int.le_add_of_nonneg_right hgrown
  · exact fun id hid => (settled_inner ha).mp (hends id hid)

/-- A running maximum is at least its start and every item. -/
theorem le_foldl_max {f : α → Int} {items : List α} {first : Int} :
    first ≤ items.foldl (fun reach item => max reach (f item)) first ∧
    ∀ item ∈ items, f item ≤ items.foldl (fun reach item => max reach (f item)) first := by
  induction items generalizing first with
  | nil => exact ⟨Int.le_refl _, by simp⟩
  | cons item rest ih =>
    obtain ⟨hfirst, hrest⟩ := @ih (max first (f item))
    rw [List.foldl_cons]
    refine ⟨by omega, fun other ho => ?_⟩
    rcases List.mem_cons.mp ho with rfl | ho
    · omega
    · exact hrest other ho

/-- The extent of what was put down reaches beyond each of its tiles. -/
theorem lt_extentSince {blueprint : Blueprint} {first id : EntityId} {entity : Entity}
    {tile origin direction : Position} (he : blueprint.entity? id = some entity)
    (hi : first ≤ id) (ht : tile ∈ entity.tiles) :
    (tile - origin).along direction < blueprint.extentSince first origin direction := by
  have hm : entity ∈ blueprint.entities.toList.drop first := by
    rw [List.mem_iff_getElem?]
    refine ⟨id - first, ?_⟩
    rw [List.getElem?_drop, Nat.add_sub_cancel' hi, Array.getElem?_toList]
    exact he
  exact le_foldl_max.2 tile (List.mem_flatMap.mpr ⟨entity, hm, ht⟩)

theorem extentSince_nonneg {blueprint : Blueprint} {first : EntityId}
    {origin direction : Position} : 0 ≤ blueprint.extentSince first origin direction :=
  le_foldl_max.1

theorem isColumn_inner {start : Position} {staysOn : Bool} (hr : frame.IsRow) :
    (frame.inner start feeds true staysOn).IsColumn := by
  simp [Frame.IsColumn, Frame.inner, hr.1, hr.2, Position.turnLeft]

/-- From the tip of a row, what is free to the right of it and below is free for a condition. -/
theorem fits_column {start : Position} {staysOn : Bool} (hr : frame.IsRow)
    (hs : start = frame.spot grown) (h : Fits frame grown draft) :
    Fits (frame.inner start feeds true staysOn) 0 draft := by
  have hc : (frame.inner start feeds true staysOn).IsColumn := isColumn_inner hr
  have hstart : (frame.inner start feeds true staysOn).start =
      ⟨frame.start.x + grown, frame.start.y⟩ := hs.trans (hr.spot grown)
  refine ⟨h.tidy, h.quiet, fun tile id hfind => ?_, fun readers hm id hid => ?_⟩
  · have hclear := h.clear tile id hfind
    rw [hr.ahead, hr.ahead, hr.aside, hr.aside] at hclear
    rw [hc.ahead, hc.ahead, hc.aside, hc.aside, hstart]
    dsimp only
    omega
  · refine (h.readers readers hm id hid).imp fun tile ht => ?_
    rw [hr.spot] at ht
    rw [hc.spot, hstart]
    exact ht

theorem settled_column {start : Position} {staysOn : Bool} {id : EntityId} (hr : frame.IsRow)
    (hs : start = frame.spot grown) (h : Settled frame grown draft id) :
    Settled (frame.inner start feeds true staysOn) 0 draft id := by
  have hc : (frame.inner start feeds true staysOn).IsColumn := isColumn_inner hr
  have hstart : (frame.inner start feeds true staysOn).start =
      ⟨frame.start.x + grown, frame.start.y⟩ := hs.trans (hr.spot grown)
  refine h.imp fun tile ht => ?_
  rw [hr.ahead, hr.ahead, hr.aside, hr.aside] at ht
  rw [hc.ahead, hc.ahead, hc.aside, hc.aside, hstart]
  dsimp only
  omega

/-- Behind all that was put down since, a row has the tiles ahead of it to itself again. -/
theorem fits_behind {origin : Position} (hr : frame.IsRow) (hs : origin = frame.spot grown)
    (h : Fits frame grown before) (he : before.blueprint.Extends after.blueprint)
    (ht : after.blueprint.Tidy) {tile : Position} {id : EntityId}
    (hf : after.blueprint.find? tile = some id) :
    frame.ahead tile < frame.ahead frame.start +
        (grown + after.blueprint.extentSince before.blueprint.size origin frame.direction) ∨
      frame.aside tile < frame.aside frame.start := by
  have hextent := @extentSince_nonneg after.blueprint before.blueprint.size origin frame.direction
  obtain ⟨entity, hentity, hm⟩ := (ht tile id).mp hf
  -- What stood before was passed already, and the extent covers what came since.
  by_cases hid : id < before.blueprint.size
  · obtain ⟨old, hold⟩ := Blueprint.entity?_eq_some_iff.mpr hid
    have hsame := he.entity hold
    rw [hentity] at hsame
    cases hsame
    rcases h.clear tile id ((h.tidy tile id).mpr ⟨entity, hold, hm⟩) with hc | hc
    · exact .inl (by omega)
    · exact .inr hc
  · have hlt := @lt_extentSince after.blueprint before.blueprint.size id entity tile origin
      frame.direction hentity (Nat.le_of_not_lt hid) hm
    generalize after.blueprint.extentSince before.blueprint.size origin frame.direction = extent
      at hextent hlt ⊢
    rw [hs, hr.spot] at hlt
    rw [hr.ahead, hr.ahead]
    simp only [Position.along, Position.sub_x, Position.sub_y, hr.1] at hlt
    omega

/-- A condition turns down from where its row has grown to, and the row goes on behind it. -/
theorem turned_advances {staysOn : Bool} {build : Frame → Build (List EntityId)}
    (hr : frame.IsRow) (hg : draft.Grounded) (hf : Fits frame draft.grown draft)
    (hi : ∀ id ∈ ids, Settled frame draft.grown draft id)
    (h : ∀ start, Settles (frame.inner start feeds true staysOn) ids [] id
      (build (frame.inner start feeds true staysOn))) :
    Advances frame draft ((descend frame feeds true staysOn build).run draft).2 ∧
    ∀ id ∈ ((descend frame feeds true staysOn build).run draft).1,
      Passed frame ((descend frame feeds true staysOn build).run draft).2.grown
        ((descend frame feeds true staysOn build).run draft).2 id := by
  rw [run_descend, run_here]
  dsimp only
  have hstart : Draft.Grounded { draft with grown := 0, poles := [] } :=
    ⟨hg.indexed, by simp, hg.requests⟩
  have hcolumn : (frame.inner (frame.spot draft.grown) feeds true staysOn).IsColumn :=
    isColumn_inner hr
  have hfits := @fits_column draft frame feeds draft.grown _ staysOn hr rfl hf
  obtain ⟨⟨hgrounded, hextend, -, hfits⟩, hends⟩ := (h (frame.spot draft.grown)).run hstart
    ⟨hfits.tidy, hfits.quiet, hfits.clear, hfits.readers⟩
    (fun id hid => settled_column hr rfl (hi id hid)) (by simp)
  generalize (build (frame.inner (frame.spot draft.grown) feeds true staysOn)).run
    { draft with grown := 0, poles := [] } = inner at hgrounded hextend hfits hends ⊢
  have hextent := @extentSince_nonneg inner.2.blueprint draft.blueprint.size
    (frame.spot draft.grown) frame.direction
  have hclear := @fits_behind draft inner.2 frame draft.grown _ hr rfl hf hextend hfits.tidy
  rw [if_pos rfl]
  generalize inner.2.blueprint.extentSince draft.blueprint.size (frame.spot draft.grown)
    frame.direction = extent at hextent hclear ⊢
  have hright : ∀ x : Int, x ≤ (frame.spot draft.grown).x →
      x ≤ frame.start.x + (draft.grown + extent) := by
    intro x hx
    rw [hr.spot] at hx
    dsimp only at hx
    omega
  refine ⟨⟨⟨hgrounded.indexed, fun pole hpole => ?_, hgrounded.requests⟩, hextend, ?_,
    ⟨hfits.tidy, hfits.quiet, fun tile id hfind => hclear hfind, ?_⟩⟩, ?_⟩
  · exact hextend.grows.isRelay_of_isRelay (hg.poles pole hpole)
  · exact Int.le_add_of_nonneg_right hextent
  · intro readers hm id hid
    obtain ⟨entity, he, ht⟩ := hfits.readers readers hm id hid
    rw [hcolumn.spot] at ht
    rw [hr.spot]
    exact ⟨entity, he, hright _ ht⟩
  · intro id hid
    obtain ⟨entity, he, -, ht⟩ := hends id hid
    rw [hcolumn.aside, hcolumn.aside] at ht
    refine ⟨entity, he, ?_⟩
    show frame.ahead entity.position ≤ _
    rw [hr.ahead, hr.ahead]
    exact hright _ ht

theorem settles_test {staysOn : Bool} {build : Frame → Build (List EntityId)}
    {next : List EntityId → Build β} {ends' : β → List EntityId} (hr : frame.IsRow)
    (h : ∀ start, Settles (frame.inner start feeds true staysOn) ids [] id
      (build (frame.inner start feeds true staysOn)))
    (h' : ∀ test, Settles frame ids (test ++ loose) ends' (next test)) :
    Settles frame ids loose ends' (descend frame feeds true staysOn build >>= next) := by
  constructor
  intro draft hg hf hi hp
  obtain ⟨ha, hr⟩ := @turned_advances draft frame feeds ids staysOn build hr hg hf hi h
  have hp' : ∀ id ∈ ((descend frame feeds true staysOn build).run draft).1 ++ loose,
      Passed frame ((descend frame feeds true staysOn build).run draft).2.grown
        ((descend frame feeds true staysOn build).run draft).2 id := by
    intro id hid
    rcases List.mem_append.mp hid with hid | hid
    · exact hr id hid
    · exact (hp id hid).mono ha.extend ha.advance
  obtain ⟨ha', hr'⟩ := (h' _).run ha.grounded ha.fits
    (fun id hid => (hi id hid).mono ha.extend ha.advance) hp'
  exact ⟨ha.trans ha', hr'⟩

theorem openSlot_advances (hg : draft.Grounded) (hf : Fits frame draft.grown draft) :
    Advances frame draft (openSlot.run draft).2 := by
  refine ⟨acts_grounded ((@builds_openSlot []).run hg (by simp [Draft.Knows])).1 hg, .refl _,
    Int.le_refl _, hf.tidy, hf.quiet, hf.clear, ?_⟩
  intro readers hm id hid
  have hm' : readers ∈ (draft.requests.push []).toList := hm
  rw [Array.toList_push] at hm'
  rcases List.mem_append.mp hm' with hm' | hm'
  · exact hf.readers readers hm' id hid
  · rw [List.mem_singleton.mp hm'] at hid
    cases hid

theorem closeSlot_advances (hr : frame.IsRow) (hg : draft.Grounded)
    (hf : Fits frame draft.grown draft) :
    Advances frame draft (closeSlot.run draft).2 ∧
    ∀ id ∈ (closeSlot.run draft).1,
      Passed frame (closeSlot.run draft).2.grown (closeSlot.run draft).2 id := by
  refine ⟨⟨acts_grounded ((@builds_closeSlot []).run hg (by simp [Draft.Knows])).1 hg, .refl _,
    Int.le_refl _, hf.tidy, hf.quiet, hf.clear, ?_⟩, ?_⟩
  · intro readers hm
    have hm' : readers ∈ draft.requests.pop.toList := hm
    rw [Array.toList_pop] at hm'
    exact hf.readers readers (List.dropLast_subset _ hm')
  · intro id hid
    have hid' : id ∈ draft.requests.back?.getD [] := hid
    cases hb : draft.requests.back? with
    | none => simp [hb] at hid'
    | some readers =>
      rw [hb] at hid'
      obtain ⟨entity, he, ht⟩ :=
        hf.readers readers (Array.mem_toList_iff.mpr (Array.mem_of_back? hb)) id hid'
      rw [hr.spot] at ht
      refine ⟨entity, he, ?_⟩
      show frame.ahead entity.position ≤ _
      rw [hr.ahead, hr.ahead]
      exact ht

/-- The readers that a slot has collected stand no further right than the row has grown. -/
theorem settles_slot {body : Nat → Build α} {next : α → List EntityId → Build β}
    {ends' : β → List EntityId} (hr : frame.IsRow)
    (h : ∀ slot, Settles frame ids loose ends (body slot))
    (h' : ∀ a readers, Settles frame (ends a ++ ids) (readers ++ loose) ends' (next a readers)) :
    Settles frame ids loose ends'
      (do
        let slot ← openSlot
        let a ← body slot
        let readers ← closeSlot
        next a readers) := by
  constructor
  intro draft hg hf hi hp
  have hopen := openSlot_advances hg hf
  obtain ⟨hbody, hends⟩ := (h draft.requests.size).run hopen.grounded hopen.fits
    (fun id hid => (hi id hid).mono hopen.extend hopen.advance)
    (fun id hid => (hp id hid).mono hopen.extend hopen.advance)
  rw [run_slot]
  dsimp only
  generalize (body draft.requests.size).run (openSlot.run draft).2 = laid at hbody hends ⊢
  obtain ⟨hclose, hreaders⟩ := closeSlot_advances hr hbody.grounded hbody.fits
  have hall := (hopen.trans hbody).trans hclose
  have hi' : ∀ id ∈ ends laid.1 ++ ids,
      Settled frame (closeSlot.run laid.2).2.grown (closeSlot.run laid.2).2 id := by
    intro id hid
    rcases List.mem_append.mp hid with hid | hid
    · exact (hends id hid).mono hclose.extend hclose.advance
    · exact (hi id hid).mono hall.extend hall.advance
  have hp' : ∀ id ∈ (closeSlot.run laid.2).1 ++ loose,
      Passed frame (closeSlot.run laid.2).2.grown (closeSlot.run laid.2).2 id := by
    intro id hid
    rcases List.mem_append.mp hid with hid | hid
    · exact hreaders id hid
    · exact (hp id hid).mono hall.extend hall.advance
  obtain ⟨hnext, hlast⟩ := (h' laid.1 (closeSlot.run laid.2).1).run hclose.grounded hclose.fits
    hi' hp'
  exact ⟨hall.trans hnext, hlast⟩

/-- The way in which a construct goes: to the right in a row, down in a condition. -/
def Frame.Heads (frame : Frame) : Setting → Prop
  | .row => frame.IsRow
  | .column => frame.IsColumn
  | _ => False

theorem Frame.Heads.aligned (h : frame.Heads setting) : frame.Aligned := by
  cases setting with
  | row => exact .inl h
  | column => exact .inr h
  | _ => exact h.elim

theorem Frame.Heads.takesChains (h : frame.Heads setting) : setting.takesChains = false := by
  cases setting with
  | row | column => rfl
  | _ => exact h.elim

/-- A member that grows the same way heads the same way. -/
theorem Frame.Heads.inner {inner : Setting} {start : Position} {staysOn : Bool}
    (h : frame.Heads setting) (hi : inner ∈ setting.inner?) :
    (frame.inner start feeds false staysOn).Heads inner := by
  cases setting with
  | row | column =>
    cases hi
    exact h
  | _ => exact h.elim

/-- A condition turns away from a row only. -/
theorem Frame.Heads.isRow (h : frame.Heads setting) (hi : setting.turned?.isSome = true) :
    setting = .row ∧ frame.IsRow := by
  cases setting with
  | row => exact ⟨rfl, h⟩
  | column => cases hi
  | _ => exact h.elim

/-- A plan for a row, or for a condition below it, is carried out on free tiles. -/
theorem Plan.settles (h : Plan setting frame ids loose ends spec action) :
    frame.Heads setting → Settles frame ids loose ends action := by
  induction h with
  | imp _ _ ih => exact ih
  | mono _ hs hl ih => exact fun hf => (ih hf).mono hs hl
  | pure h => exact fun _ => .pure h
  | bind _ _ ih ih' => exact fun hf => (ih hf).bind fun a => ih' a hf
  | announce node => exact fun _ => settles_announce
  | readsRelay hs => exact fun _ => .of_unchanged fun _ => rfl
  | head hc | tail hc =>
    intro hf
    rw [hf.takesChains] at hc
    cases hc
  | place hs => exact fun hf => settles_place hf.aligned hs
  | route ha hb => exact fun hf => settles_route hf.aligned ha hb
  | descend hi _ ih =>
    exact fun hf => settles_descend hf.aligned fun start => ih start (hf.inner hi)
  | test hi _ _ ih ih' =>
    intro hf
    obtain ⟨rfl, hr⟩ := hf.isRow (Option.isSome_of_mem hi)
    cases hi
    exact settles_test hr (fun start => ih start (isColumn_inner hr)) fun test => ih' test hf
  | slot hi _ _ ih ih' =>
    intro hf
    exact settles_slot (hf.isRow hi).2 (fun slot => ih slot hf) fun a readers => ih' a readers hf

end CircuitScript.Layout
