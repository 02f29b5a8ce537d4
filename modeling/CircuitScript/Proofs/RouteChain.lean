import CircuitScript.Proofs.RouteReach
import CircuitScript.Proofs.SpatialIndex
import Mathlib.Algebra.Order.Floor.Div
/-!
Routes as they are walked. A route is led from relay to relay for as long as its end is out of
reach, and each relay is looked for tile by tile, outward; nothing bounds either search from the
start. Both end, the first after as many relays as the distance takes, since going outward is going
neither forth nor back.
-/
namespace CircuitScript.Layout

variable {draft placed linked before after later final : Draft} {frame : Frame} {color : Color}
  {tile place home goal : Position} {source target anchor first second : Terminal}
  {result : EntityId × Draft} {relay : EntityId} {relays : List EntityId} {way : Int}

/-- The search for a relay from a tile outward: one that stands there is used again, a combinator is
passed by, and a free tile gets a new one. -/
inductive Seeks (frame : Frame) (draft : Draft) : Position → EntityId × Draft → Prop
  | pole {tile : Position} {id : EntityId}
      (hpole : poleAt? draft.blueprint draft.poles tile = some id) :
      Seeks frame draft tile (id, draft)
  | relay {tile : Position} {id : EntityId}
      (hpole : poleAt? draft.blueprint draft.poles tile = none)
      (hfound : draft.blueprint.find? tile = some id)
      (hrelay : draft.blueprint.isRelay id = true) : Seeks frame draft tile (id, draft)
  | past {tile : Position} {id : EntityId} {result : EntityId × Draft}
      (hpole : poleAt? draft.blueprint draft.poles tile = none)
      (hfound : draft.blueprint.find? tile = some id)
      (hrelay : draft.blueprint.isRelay id = false)
      (rest : Seeks frame draft (tile + frame.direction.turnRight) result) :
      Seeks frame draft tile result
  | fresh {tile : Position} (hpole : poleAt? draft.blueprint draft.poles tile = none)
      (hfound : draft.blueprint.find? tile = none) :
      Seeks frame draft tile ((relayOn tile none).run draft)

theorem Seeks.unique {other : EntityId × Draft} (h : Seeks frame draft tile result)
    (h' : Seeks frame draft tile other) : result = other := by
  induction h generalizing other with
  | pole hpole => cases h' <;> simp_all
  | relay hpole hfound hrelay => cases h' <;> simp_all
  | past hpole hfound hrelay rest ih =>
    cases h' with
    | past _ _ _ rest' => exact ih rest'
    | _ => simp_all
  | fresh hpole hfound => cases h' <;> simp_all

/-- The search goes on exactly over the tiles that are blocked. -/
theorem seeks_firstOpen {n : Nat}
    (h : blocked draft.blueprint draft.poles (firstOpen draft.blueprint draft.poles
      frame.direction.turnRight n tile) = false) :
    Seeks frame draft tile
      ((relayOn (firstOpen draft.blueprint draft.poles frame.direction.turnRight n tile)
        (standing? draft (firstOpen draft.blueprint draft.poles frame.direction.turnRight n
          tile))).run draft) := by
  have hopen : ∀ tile, blocked draft.blueprint draft.poles tile = false →
      Seeks frame draft tile ((relayOn tile (standing? draft tile)).run draft) := by
    intro tile hblocked
    unfold standing?
    cases hpole : poleAt? draft.blueprint draft.poles tile with
    | some pole => exact .pole hpole
    | none =>
      cases hfound : draft.blueprint.find? tile with
      | none => exact .fresh hpole hfound
      | some id =>
        refine .relay hpole hfound ?_
        simpa [blocked, hpole, hfound] using hblocked
  induction n generalizing tile with
  | zero => exact hopen _ h
  | succ n ih =>
    rw [firstOpen] at h ⊢
    split at h
    · next hblocked =>
      rw [if_pos hblocked]
      simp only [blocked, Bool.and_eq_true, Option.isNone_iff_eq_none,
        Option.any_eq_true] at hblocked
      obtain ⟨hpole, id, hfound, hrelay⟩ := hblocked
      exact .past hpole hfound (by simpa using hrelay) (ih h)
    · next hblocked =>
      rw [if_neg hblocked]
      exact hopen _ h

/-- The search ends, with the relay that is laid out. -/
theorem seeks_iff (hf : frame.Upright) :
    Seeks frame draft tile result ↔ result = (relayAt frame tile).run draft := by
  have hseeks : Seeks frame draft tile ((relayAt frame tile).run draft) := by
    rw [run_relayAt]
    exact seeks_firstOpen (not_blocked_firstOpen (turnRight_ne hf))
  constructor
  · exact fun h => h.unique hseeks
  · rintro rfl
    exact hseeks

/-- Entities are found only where they lie, and the poles are relays. -/
structure Draft.Routable (draft : Draft) : Prop where
  sound : draft.blueprint.Sound
  poles : ∀ pole ∈ draft.poles, draft.blueprint.isRelay pole = true

theorem Draft.Routable.link (h : placed.Routable) (a b : Terminal) (color : Color) :
    ((Layout.link a b color).run placed).2.Routable :=
  ⟨Blueprint.sound_connect h.sound,
    fun pole hmem => Blueprint.extends_connect.grows.isRelay_of_isRelay (h.poles pole hmem)⟩

/-- Beside what was there, one relay may stand on a tile that was free. -/
structure Sets (relay : EntityId) (place : Position) (before after : Draft) : Prop where
  routable : after.Routable
  isRelay : after.blueprint.isRelay relay = true
  stands : StandsOn after relay place
  added : after = before ∨
    before.blueprint.find? place = none ∧ (relay, after) = (relayOn place none).run before

/-- What the search gives is a relay no further forth or back than where the search began. -/
theorem Seeks.sets (h : Seeks frame draft tile result) (hd : draft.Routable) :
    ∃ place, Sets result.1 place draft result.2 ∧
      place.along frame.direction = tile.along frame.direction := by
  induction h with
  | @pole tile id hpole =>
    have hat := List.find?_some hpole
    have hrelay := hd.poles _ (List.mem_of_find?_eq_some hpole)
    cases hentity : draft.blueprint.entity? id with
    | none => simp [hentity] at hat
    | some entity =>
      exact ⟨tile, ⟨hd, hrelay, ⟨entity, hentity, by simpa [hentity] using hat⟩, .inl rfl⟩, rfl⟩
  | relay hpole hfound hrelay =>
    exact ⟨_, ⟨hd, hrelay, Blueprint.position_of_find? hd.sound hrelay hfound, .inl rfl⟩, rfl⟩
  | past hpole hfound hrelay rest ih =>
    obtain ⟨place, hsets, halong⟩ := ih
    refine ⟨place, hsets, ?_⟩
    rw [halong, along_add, along_turnRight, Int.add_zero]
  | fresh hpole hfound =>
    refine ⟨_, ⟨⟨Blueprint.sound_create hd.sound, fun pole hmem => ?_⟩, Blueprint.isRelay_create,
      ⟨_, Blueprint.entity?_create, rfl⟩, .inr ⟨hfound, rfl⟩⟩, rfl⟩
    rcases List.mem_append.mp hmem with hmem | hmem
    · exact extends_relayOn.grows.isRelay_of_isRelay (hd.poles pole hmem)
    · rw [List.mem_singleton.mp hmem]
      exact Blueprint.isRelay_create

theorem Sets.wires (h : Sets relay place before after) :
    after.blueprint.wires = before.blueprint.wires := by
  rcases h.added with rfl | ⟨-, hnew⟩
  · rfl
  · obtain ⟨rfl, rfl⟩ := Prod.mk.inj hnew
    rfl

theorem Sets.entities (h : Sets relay place before after) :
    ∃ new : Array Entity, after.blueprint.entities = before.blueprint.entities ++ new ∧
      ∀ entity ∈ new, entity.kind = .relay ∧ entity.id = relay ∧
        before.blueprint.find? entity.position = none := by
  rcases h.added with rfl | ⟨hfree, hnew⟩
  · exact ⟨#[], Array.append_empty.symm, fun entity hmem => absurd hmem (Array.not_mem_empty _)⟩
  · obtain ⟨rfl, rfl⟩ := Prod.mk.inj hnew
    refine ⟨#[⟨before.blueprint.size, .relay, place, 0, none⟩], ?_, fun entity hmem => ?_⟩
    · exact Blueprint.entities_create.trans Array.append_singleton.symm
    · cases Array.mem_singleton.mp hmem
      exact ⟨rfl, rfl, hfree⟩

theorem Sets.extends (h : Sets relay place before after) :
    before.blueprint.Extends after.blueprint := by
  rcases h.added with rfl | ⟨-, hnew⟩
  · exact .refl _
  · obtain ⟨rfl, rfl⟩ := Prod.mk.inj hnew
    exact extends_relayOn

theorem Sets.find?_eq_none (h : Sets relay place before after)
    (hfree : after.blueprint.find? tile = none) : before.blueprint.find? tile = none := by
  rcases h.added with rfl | ⟨-, hnew⟩
  · exact hfree
  · obtain ⟨rfl, rfl⟩ := Prod.mk.inj hnew
    have hcreated := (@Blueprint.find?_create before.blueprint tile place .relay).symm.trans hfree
    split at hcreated
    · cases hcreated
    · exact hcreated

theorem StandsOn.place_eq (h : StandsOn draft anchor.entity place) :
    draft.place anchor = place := by
  obtain ⟨entity, hentity, rfl⟩ := h
  exact run_positionOf hentity

/-- Two entities that stand on different tiles are different. -/
theorem StandsOn.unique {id : EntityId} {other : Position} (h : StandsOn draft id place)
    (h' : StandsOn draft id other) : place = other := by
  obtain ⟨entity, hentity, rfl⟩ := h
  obtain ⟨entity', hentity', rfl⟩ := h'
  rw [hentity] at hentity'
  cases hentity'
  rfl

/-- The tile on which the next relay is looked for. From its source a route goes over to the lane.
-/
def nextTile (frame : Frame) (source target : Terminal) (draft : Draft) (anchor : Terminal) :
    Position :=
  let tile := draft.place anchor + strideOf frame (wayAlong draft frame anchor target)
  if anchor = source then tile + frame.direction.turnRight.scale (frame.depth + 1) else tile

/-- A wire is led on from relay to relay while its end is out of reach, unless the next relay is the
end or the one that it comes from. -/
inductive Walks (frame : Frame) (color : Color) (source target : Terminal) :
    Draft → Terminal → List EntityId → Draft → Prop
  | near {draft : Draft} {anchor : Terminal}
      (hnear : (wayAlong draft frame anchor target).natAbs ≤ reach frame.depth) :
      Walks frame color source target draft anchor [] ((link anchor target color).run draft).2
  | stuck {draft : Draft} {anchor : Terminal} {result : EntityId × Draft}
      (hfar : reach frame.depth < (wayAlong draft frame anchor target).natAbs)
      (hseeks : Seeks frame draft (nextTile frame source target draft anchor) result)
      (hstuck : result.1 = target.entity ∨ result.1 = anchor.entity) :
      Walks frame color source target draft anchor [] ((link anchor target color).run result.2).2
  | onward {draft : Draft} {anchor : Terminal} {result : EntityId × Draft}
      {relays : List EntityId} {final : Draft}
      (hfar : reach frame.depth < (wayAlong draft frame anchor target).natAbs)
      (hseeks : Seeks frame draft (nextTile frame source target draft anchor) result)
      (htarget : result.1 ≠ target.entity) (hanchor : result.1 ≠ anchor.entity)
      (rest : Walks frame color source target
        ((link anchor ⟨result.1, .input⟩ color).run result.2).2 ⟨result.1, .input⟩ relays final) :
      Walks frame color source target draft anchor (result.1 :: relays) final

theorem Walks.unique {others : List EntityId}
    (h : Walks frame color source target draft anchor relays final)
    (h' : Walks frame color source target draft anchor others after) :
    others = relays ∧ after = final := by
  induction h generalizing others after with
  | near hnear =>
    cases h' with
    | near => exact ⟨rfl, rfl⟩
    | stuck hfar => omega
    | onward hfar => omega
  | stuck hfar hseeks hstuck =>
    cases h' with
    | near hnear => omega
    | stuck _ hseeks' =>
      cases hseeks.unique hseeks'
      exact ⟨rfl, rfl⟩
    | onward _ hseeks' htarget hanchor =>
      cases hseeks.unique hseeks'
      exact absurd hstuck (not_or.mpr ⟨htarget, hanchor⟩)
  | onward hfar hseeks htarget hanchor rest ih =>
    cases h' with
    | near hnear => omega
    | stuck _ hseeks' hstuck =>
      cases hseeks.unique hseeks'
      exact absurd hstuck (not_or.mpr ⟨htarget, hanchor⟩)
    | onward _ hseeks' _ _ rest' =>
      cases hseeks.unique hseeks'
      obtain ⟨rfl, rfl⟩ := ih rest'
      exact ⟨rfl, rfl⟩

theorem Walks.iff {others : List EntityId}
    (h : Walks frame color source target draft anchor relays final) :
    Walks frame color source target draft anchor others after ↔
      others = relays ∧ after = final := by
  constructor
  · exact fun h' => h.unique h'
  · rintro ⟨rfl, rfl⟩
    exact h

/-- The neighbours in a chain of terminals. -/
def neighbours (chain : List Terminal) : List (Terminal × Terminal) := chain.zip chain.tail

@[simp] theorem neighbours_cons (a b : Terminal) (rest : List Terminal) :
    neighbours (a :: b :: rest) = (a, b) :: neighbours (b :: rest) := rfl

/-- Between the two drafts a chain of short wires was drawn, and relays on it were put on free
tiles; all else stays as it was. -/
structure Draws (frame : Frame) (color : Color) (chain : List Terminal) (before after : Draft) :
    Prop where
  wires : ∀ wire, wire ∈ after.blueprint.wires ↔ wire ∈ before.blueprint.wires ∨
    ∃ pair ∈ neighbours chain, wire = Wire.between pair.1 pair.2 color
  short : ∀ pair ∈ neighbours chain, ∃ p q, StandsOn after pair.1.entity p ∧
    StandsOn after pair.2.entity q ∧ ((q - p).along frame.direction).natAbs ≤ reach frame.depth
  entities : ∃ new : Array Entity, after.blueprint.entities = before.blueprint.entities ++ new ∧
    ∀ entity ∈ new, entity.kind = .relay ∧ (⟨entity.id, .input⟩ : Terminal) ∈ chain ∧
      before.blueprint.find? entity.position = none

theorem Draws.extends {chain : List Terminal} (h : Draws frame color chain before after) :
    before.blueprint.Extends after.blueprint := by
  obtain ⟨new, hnew, -⟩ := h.entities
  refine ⟨fun hentity => ?_, fun hmem => (h.wires _).mpr (.inl hmem)⟩
  have hlt := Blueprint.entity?_eq_some_iff.mp ⟨_, hentity⟩
  rw [Blueprint.entity?, hnew, Array.getElem?_append_left hlt]
  exact hentity

theorem mem_wires_link {wire : Wire} (hne : anchor ≠ target)
    (hanchor : draft.blueprint.vertex anchor = anchor)
    (htarget : draft.blueprint.vertex target = target) :
    wire ∈ ((link anchor target color).run draft).2.blueprint.wires ↔
      wire ∈ draft.blueprint.wires ∨ wire = Wire.between anchor target color := by
  refine Blueprint.mem_wires_connect.trans ?_
  rw [← Blueprint.vertex, ← Blueprint.vertex, hanchor, htarget, and_iff_right hne]

/-- One wire is a chain. -/
theorem draws_link (hne : anchor ≠ target) (hanchor : draft.blueprint.vertex anchor = anchor)
    (htarget : draft.blueprint.vertex target = target) (hat : StandsOn draft anchor.entity place)
    (hend : StandsOn draft target.entity goal)
    (hnear : ((goal - place).along frame.direction).natAbs ≤ reach frame.depth) :
    Draws frame color [anchor, target] draft ((link anchor target color).run draft).2 where
  wires := by
    intro wire
    rw [mem_wires_link hne hanchor htarget]
    simp [neighbours]
  short := by
    intro pair hmem
    cases List.mem_singleton.mp hmem
    exact ⟨place, goal, hat.extends Blueprint.extends_connect,
      hend.extends Blueprint.extends_connect, hnear⟩
  entities := by
    refine ⟨#[], ?_, fun entity hmem => absurd hmem (Array.not_mem_empty _)⟩
    rw [Array.append_empty]
    exact Blueprint.entities_connect.1

/-- One more hop makes the chain longer at its beginning. -/
theorem Draws.cons {rest : List Terminal} (h : Draws frame color (⟨relay, .input⟩ :: rest)
      ((link anchor ⟨relay, .input⟩ color).run placed).2 final)
    (hsets : Sets relay goal draft placed) (hne : relay ≠ anchor.entity)
    (hanchor : draft.blueprint.vertex anchor = anchor) (hat : StandsOn draft anchor.entity place)
    (hnear : ((goal - place).along frame.direction).natAbs ≤ reach frame.depth) :
    Draws frame color (anchor :: ⟨relay, .input⟩ :: rest) draft final where
  wires := by
    have hvertex : placed.blueprint.vertex anchor = anchor := by
      obtain ⟨entity, hentity, -⟩ := hat
      rw [hsets.extends.grows.vertex (Blueprint.entity?_eq_some_iff.mp ⟨entity, hentity⟩), hanchor]
    have hdiffer : anchor ≠ ⟨relay, .input⟩ := fun heq => hne (congrArg Terminal.entity heq).symm
    intro wire
    rw [h.wires, mem_wires_link hdiffer hvertex (Blueprint.vertex_input _), hsets.wires, or_assoc]
    simp only [neighbours_cons, List.mem_cons, exists_eq_or_imp]
  short := by
    intro pair hmem
    rcases List.mem_cons.mp hmem with rfl | hmem
    · have hlater := Blueprint.extends_connect.trans h.extends
      exact ⟨place, goal, hat.extends (hsets.extends.trans hlater), hsets.stands.extends hlater,
        hnear⟩
    · exact h.short pair hmem
  entities := by
    obtain ⟨new, hnew, hrelay⟩ := hsets.entities
    obtain ⟨more, hmore, hrest⟩ := h.entities
    refine ⟨new ++ more, ?_, fun entity hmem => ?_⟩
    · rw [hmore, ← Array.append_assoc, ← hnew]
      exact congrArg (· ++ more) Blueprint.entities_connect.1
    · rcases Array.mem_append.mp hmem with hmem | hmem
      · obtain ⟨hkind, rfl, hfree⟩ := hrelay entity hmem
        exact ⟨hkind, by simp, hfree⟩
      · obtain ⟨hkind, hchain, hfree⟩ := hrest entity hmem
        refine ⟨hkind, List.mem_cons_of_mem _ hchain, hsets.find?_eq_none ?_⟩
        exact (congrArg (Grid.find? · entity.position)
          Blueprint.entities_connect.2).symm.trans hfree

/-- The relays of a way stand one after the other, each a stride further than the one before. -/
def Spaced (frame : Frame) (start stride : Int) (relays : List EntityId) (draft : Draft) : Prop :=
  ∀ i relay, relays[i]? = some relay → draft.blueprint.isRelay relay = true ∧
    ∃ place, StandsOn draft relay place ∧
      place.along frame.direction = start + stride * (i + 1 : Nat)

theorem Spaced.cons {start stride : Int} (h : Spaced frame (start + stride) stride relays draft)
    (hrelay : draft.blueprint.isRelay relay = true) (hstands : StandsOn draft relay place)
    (halong : place.along frame.direction = start + stride) :
    Spaced frame start stride (relay :: relays) draft := by
  intro i other hget
  cases i with
  | zero =>
    cases hget
    exact ⟨hrelay, place, hstands, by omega⟩
  | succ i =>
    obtain ⟨hother, tile, htile, hgone⟩ := h i other hget
    refine ⟨hother, tile, htile, ?_⟩
    rw [hgone, Int.natCast_succ (i + 1), Int.mul_add]
    omega

/-- A stride towards an end that is out of reach does not lead past it. -/
theorem way_after_stride {r : Nat} (h : r < way.natAbs) :
    (way - r * way.sign).sign = way.sign ∧ (way - r * way.sign).natAbs = way.natAbs - r := by
  rcases Int.lt_trichotomy way 0 with hway | hway | hway
  · rw [Int.sign_eq_neg_one_of_neg hway, Int.sign_eq_neg_one_iff_neg]
    omega
  · omega
  · rw [Int.sign_eq_one_of_pos hway, Int.sign_eq_one_iff_pos]
    omega

/-- So it leaves one relay less to go over. -/
theorem pred_div_after_stride {r n : Nat} (h : r < way.natAbs) (hn : n + 1 = (way.natAbs - 1) / r) :
    n = ((way - r * way.sign).natAbs - 1) / r := by
  have hdiv := Nat.sub_mul_div (way.natAbs - 1) r 1
  rw [Nat.mul_one, Nat.sub_right_comm] at hdiv
  rw [(way_after_stride h).2, hdiv]
  omega

theorem sign_of_ne (h : way ≠ 0) : way.sign = 1 ∨ way.sign = -1 := by
  rcases Int.lt_or_gt_of_ne h with hneg | hpos
  · exact .inr (Int.sign_eq_neg_one_of_neg hneg)
  · exact .inl (Int.sign_eq_one_of_pos hpos)

/-- Going on, one does not come back to where one came from. -/
theorem behind_after_stride {start : Int} {r : Nat} (h : r < way.natAbs) {along : Int}
    (hb : 0 ≤ (along - start) * way.sign) :
    0 ≤ (along + r * way.sign - start) * (way - r * way.sign).sign := by
  rw [(way_after_stride h).1]
  rcases sign_of_ne (show way ≠ 0 by omega) with hsign | hsign <;> rw [hsign] at hb ⊢ <;> omega

theorem wayAlong_eq (hat : StandsOn draft anchor.entity place)
    (hend : StandsOn draft target.entity goal) :
    wayAlong draft frame anchor target = (goal - place).along frame.direction := by
  rw [wayAlong, hat.place_eq, hend.place_eq]

theorem along_nextTile (hf : frame.Upright) (hat : StandsOn draft anchor.entity place)
    (hway : wayAlong draft frame anchor target = way) :
    (nextTile frame source target draft anchor).along frame.direction =
      place.along frame.direction + reach frame.depth * way.sign := by
  unfold nextTile
  rw [hway, hat.place_eq, strideOf]
  dsimp only
  split
  · rw [along_add, along_add, along_stride hf, along_scale, along_turnRight]
    omega
  · rw [along_add, along_stride hf]

/-- While the target is out of reach, the next relay is one stride ahead. So it is neither the
anchor, nor the target, nor the source, which is not ahead of the anchor. -/
theorem exists_stop (hf : frame.Upright) (hd : draft.Routable)
    (hat : StandsOn draft anchor.entity place) (hend : StandsOn draft target.entity goal)
    (hfrom : StandsOn draft source.entity home) (hway : wayAlong draft frame anchor target = way)
    (hbehind : 0 ≤ (place - home).along frame.direction * way.sign)
    (hfar : reach frame.depth < way.natAbs)
    (hseeks : Seeks frame draft (nextTile frame source target draft anchor) (relay, placed)) :
    ∃ stop, Sets relay stop draft placed ∧
      stop.along frame.direction = place.along frame.direction + reach frame.depth * way.sign ∧
      relay ≠ anchor.entity ∧ relay ≠ target.entity ∧ relay ≠ source.entity := by
  obtain ⟨stop, hsets, hstop⟩ := hseeks.sets hd
  rw [along_nextTile hf hat hway] at hstop
  have hreach := reach_pos frame.depth
  have hgap := (wayAlong_eq hat hend).symm.trans hway
  have hapart : ∀ {id tile}, StandsOn draft id tile →
      tile.along frame.direction ≠ stop.along frame.direction → relay ≠ id := by
    rintro id tile htile hdiffer rfl
    exact hdiffer (congrArg (Position.along · frame.direction)
      ((htile.extends hsets.extends).unique hsets.stands))
  rw [along_sub] at hgap hbehind
  have hne : way ≠ 0 := by omega
  refine ⟨stop, hsets, hstop, hapart hat ?_, hapart hend ?_, hapart hfrom ?_⟩ <;>
    rcases sign_of_ne hne with hsign | hsign <;> rw [hsign] at hstop hbehind <;> omega

/-- Whoever goes on over a fixed number of relays goes the way that is found by trying whether the
end is within reach. -/
theorem hop_walks {n : Nat} (hf : frame.Upright) (hd : draft.Routable)
    (hanchor : draft.blueprint.vertex anchor = anchor)
    (htarget : draft.blueprint.vertex target = target)
    (hat : StandsOn draft anchor.entity place) (hend : StandsOn draft target.entity goal)
    (hfrom : StandsOn draft source.entity home) (hne : anchor ≠ target)
    (hway : wayAlong draft frame anchor target = way)
    (hbehind : 0 ≤ (place - home).along frame.direction * way.sign)
    (hn : n = (way.natAbs - 1) / reach frame.depth) :
    ∃ relays laid, (hop frame color (strideOf frame way) n anchor
        (nextTile frame source target draft anchor)).run draft = (relays, laid) ∧
      relays.length = n ∧
      Walks frame color source target draft anchor relays
        ((link (lastStop anchor relays) target color).run laid).2 ∧
      Draws frame color (anchor :: (stops relays ++ [target])) draft
        ((link (lastStop anchor relays) target color).run laid).2 ∧
      Spaced frame (place.along frame.direction) (reach frame.depth * way.sign) relays
        ((link (lastStop anchor relays) target color).run laid).2 := by
  have hreach := reach_pos frame.depth
  induction n generalizing draft anchor place way with
  | zero =>
    have hnear : way.natAbs ≤ reach frame.depth := by
      have := Nat.lt_of_div_eq_zero hreach hn.symm
      omega
    refine ⟨[], draft, rfl, rfl, .near (hway ▸ hnear), ?_, fun i relay hget => by simp at hget⟩
    rw [← hway, wayAlong_eq hat hend] at hnear
    exact draws_link hne hanchor htarget hat hend hnear
  | succ n ih =>
    have hfar : reach frame.depth < way.natAbs := by
      have := (Nat.le_div_iff_mul_le hreach).mp (hn ▸ Nat.le_add_left 1 n)
      omega
    have hseeks := (@seeks_iff draft frame (nextTile frame source target draft anchor) _ hf).mpr rfl
    rw [hop_succ]
    generalize (relayAt frame (nextTile frame source target draft anchor)).run draft = result
      at hseeks ⊢
    obtain ⟨relay, placed⟩ := result
    obtain ⟨stop, hsets, hstop, hnotAnchor, hnotTarget, hnotSource⟩ :=
      exists_stop hf hd hat hend hfrom hway hbehind hfar hseeks
    dsimp only
    have hlink : placed.blueprint.Extends
        ((link anchor ⟨relay, .input⟩ color).run placed).2.blueprint := Blueprint.extends_connect
    have hroutable := hsets.routable.link anchor ⟨relay, .input⟩ color
    have hcons : ∀ {rest final}, Draws frame color (⟨relay, .input⟩ :: rest)
        ((link anchor ⟨relay, .input⟩ color).run placed).2 final →
        Draws frame color (anchor :: ⟨relay, .input⟩ :: rest) draft final := by
      intro rest final hdraws
      refine hdraws.cons hsets hnotAnchor hanchor hat ?_
      rw [along_sub, hstop]
      rcases Int.sign_trichotomy way with hsign | hsign | hsign <;> rw [hsign] <;> omega
    have honward : ∀ {relays final}, Walks frame color source target
        ((link anchor ⟨relay, .input⟩ color).run placed).2 ⟨relay, .input⟩ relays final →
        Walks frame color source target draft anchor (relay :: relays) final :=
      fun hwalks => .onward (hway ▸ hfar) hseeks hnotTarget hnotAnchor hwalks
    generalize ((link anchor ⟨relay, .input⟩ color).run placed).2 = linked
      at hlink hroutable hcons honward ⊢
    have hlater := hsets.extends.trans hlink
    have hstands := hsets.stands.extends hlink
    -- From the relay the same is left to do, with one relay less to go over.
    have hsign := (way_after_stride hfar).1
    have hrest : wayAlong linked frame ⟨relay, .input⟩ target =
        way - reach frame.depth * way.sign := by
      rw [wayAlong_eq hat hend, along_sub] at hway
      rw [wayAlong_eq hstands (hend.extends hlater), along_sub, hstop]
      omega
    have hstride : strideOf frame (way - reach frame.depth * way.sign) = strideOf frame way := by
      rw [strideOf, strideOf, hsign]
    have hplace : ((positionOf relay).run linked).1 = stop :=
      @StandsOn.place_eq _ _ ⟨relay, .input⟩ hstands
    have hnext :
        nextTile frame source target linked ⟨relay, .input⟩ = stop + strideOf frame way := by
      rw [nextTile, if_neg fun heq => hnotSource (congrArg Terminal.entity heq), hrest, hstride,
        hstands.place_eq]
    have hvertex : linked.blueprint.vertex target = target := by
      obtain ⟨entity, hentity, -⟩ := hend
      rw [hlater.grows.vertex (Blueprint.entity?_eq_some_iff.mp ⟨entity, hentity⟩), htarget]
    have hahead : 0 ≤ (stop - home).along frame.direction *
        (way - reach frame.depth * way.sign).sign := by
      rw [along_sub] at hbehind ⊢
      rw [hstop]
      exact behind_after_stride hfar hbehind
    obtain ⟨relays, laid, hhop, hlength, hwalks, hdraws, hspaced⟩ := ih hroutable
      (Blueprint.vertex_input _) hvertex hstands (hend.extends hlater) (hfrom.extends hlater)
      (fun heq => hnotTarget (congrArg Terminal.entity heq)) hrest hahead
      (pred_div_after_stride hfar hn)
    rw [hnext, hstride] at hhop
    rw [hplace, hhop]
    refine ⟨relay :: relays, laid, rfl, congrArg (· + 1) hlength, ?_⟩
    rw [lastStop_cons]
    rw [hsign, hstop] at hspaced
    have hfinal := hlink.trans hdraws.extends
    exact ⟨honward hwalks, hcons hdraws, hspaced.cons
      (hfinal.grows.isRelay_of_isRelay hsets.isRelay) (hsets.stands.extends hfinal) hstop⟩

theorem standsOn_place (h : anchor.entity < draft.blueprint.size) :
    StandsOn draft anchor.entity (draft.place anchor) := by
  obtain ⟨entity, hentity⟩ := Blueprint.entity?_eq_some_iff.mpr h
  exact ⟨entity, hentity, (run_positionOf hentity).symm⟩

theorem pred_div_eq {distance r : Nat} (hr : 0 < r) :
    (distance - 1) / r = distance ⌈/⌉ r - 1 := by
  rw [Nat.ceilDiv_eq_add_pred_div]
  rcases Nat.eq_zero_or_pos distance with rfl | hpos
  · rw [Nat.zero_add, Nat.div_eq_of_lt (Nat.sub_lt hr Nat.one_pos), Nat.zero_sub, Nat.zero_div]
  · rw [show distance + r - 1 = distance - 1 + r by omega, Nat.add_div_right _ hr]
    rfl

/-- A way over relays is the walk from its source. -/
theorem overRelays_walks (hf : frame.Upright) (hd : draft.Routable)
    (ha : source.entity < draft.blueprint.size) (hb : target.entity < draft.blueprint.size)
    (hsource : draft.blueprint.vertex source = source)
    (htarget : draft.blueprint.vertex target = target) (hne : source ≠ target)
    (hway : wayAlong draft frame source target = way) (color : Color) :
    ∃ relays final, (overRelays frame color (strideOf frame way)
        ((way.natAbs - 1) / reach frame.depth) (draft.place source + strideOf frame way +
          frame.direction.turnRight.scale (frame.depth + 1)) source target).run draft =
        (relays, final) ∧
      relays.length = way.natAbs ⌈/⌉ reach frame.depth - 1 ∧
      Walks frame color source target draft source relays final ∧
      Draws frame color (source :: (stops relays ++ [target])) draft final ∧
      Spaced frame ((draft.place source).along frame.direction) (reach frame.depth * way.sign)
        relays final := by
  have hstart := standsOn_place ha
  obtain ⟨relays, laid, hhop, hlength, hrest⟩ := @hop_walks draft frame color _ _ _ source target
    source way _ hf hd hsource htarget hstart (standsOn_place hb) hstart hne hway
    (by rw [along_sub, Int.sub_self, Int.zero_mul]) rfl
  have hnext : nextTile frame source target draft source = draft.place source +
      strideOf frame way + frame.direction.turnRight.scale (frame.depth + 1) := by
    rw [nextTile, if_pos rfl, hway]
  rw [hnext] at hhop
  have hrun : ∀ n tile,
      (overRelays frame color (strideOf frame way) n tile source target).run draft =
      let laid := (hop frame color (strideOf frame way) n source tile).run draft
      (laid.1, ((link (lastStop source laid.1) target color).run laid.2).2) := fun _ _ => rfl
  rw [hrun, hhop]
  exact ⟨relays, _, rfl, hlength.trans (pred_div_eq (reach_pos _)), hrest⟩

/-- All of a chain of wires is on one network. -/
theorem joined_of_neighbours {blueprint : Blueprint} {a b : Terminal} {chain : List Terminal}
    (h : ∀ pair ∈ neighbours (a :: chain), Wire.between pair.1 pair.2 color ∈ blueprint.wires)
    (hb : b ∈ a :: chain) : blueprint.Joined color a b := by
  induction chain generalizing a with
  | nil =>
    rw [List.mem_singleton.mp hb]
    exact .refl _
  | cons next rest ih =>
    rw [neighbours_cons, List.forall_mem_cons] at h
    rcases List.mem_cons.mp hb with rfl | hb
    · exact .refl _
    · exact (Blueprint.joined_between h.1).trans _ _ _ (ih h.2 hb)

theorem Draws.joined {chain : List Terminal} (h : Draws frame color (anchor :: chain) before after)
    (hb : target ∈ chain) : after.blueprint.Joined color anchor target :=
  joined_of_neighbours (fun pair hmem => (h.wires _).mpr (.inr ⟨pair, hmem, rfl⟩))
    (List.mem_cons_of_mem _ hb)

theorem wayAlong_swap :
    wayAlong draft frame second first = -wayAlong draft frame first second := by
  rw [wayAlong, wayAlong, along_sub, along_sub]
  omega

/-- A route between two terminals of a sound layout is exact. It is what is reached, and nothing
else is, by hopping on while the end is out of reach; it goes over as many relays as the distance
takes, each a stride from the one before; and it changes nothing else. The search for each relay
ends wherever it begins, and what makes all this hold lasts when entities are created, turned and
centred. -/
theorem route_exact (hsound : draft.blueprint.Sound)
    (hpoles : ∀ pole ∈ draft.poles, draft.blueprint.isRelay pole = true) (hf : frame.Upright)
    (hfirst : first.entity < draft.blueprint.size)
    (hsecond : second.entity < draft.blueprint.size)
    (hvertex : draft.blueprint.vertex first = first)
    (hvertex' : draft.blueprint.vertex second = second) (hne : first ≠ second) (color : Color) :
    (∃ source target relays final, (source, target) = orderedEnds draft first second ∧
      (route frame first second color).run draft =
        ((), { final with routes := ⟨frame, first, second, color, relays⟩ :: final.routes }) ∧
      (∀ relays' final', Walks frame color source target draft source relays' final' ↔
        relays' = relays ∧ final' = final) ∧
      relays.length = (wayAlong draft frame first second).natAbs ⌈/⌉ reach frame.depth - 1 ∧
      final.blueprint.Joined color first second ∧
      Draws frame color (source :: (stops relays ++ [target])) draft final ∧
      Spaced frame ((draft.place source).along frame.direction)
        (reach frame.depth * (wayAlong draft frame source target).sign) relays final) ∧
    (∀ tile result, Seeks frame draft tile result ↔ result = (relayAt frame tile).run draft) ∧
    (∀ kind tile, (draft.blueprint.create kind tile).2.1.Sound) ∧
    (∀ id direction, (draft.blueprint.turn id direction).1.Sound) ∧
    draft.blueprint.center.Sound := by
  refine ⟨?_, fun _ _ => seeks_iff hf, fun _ _ => Blueprint.sound_create hsound,
    fun _ _ => Blueprint.sound_turn hsound, Blueprint.sound_center hsound⟩
  rw [run_route]
  rcases orderedEnds_cases draft first second with he | he
  · rw [he]
    obtain ⟨relays, final, hrun, hlength, hwalks, hdraws, hspaced⟩ := overRelays_walks hf
      ⟨hsound, hpoles⟩ hfirst hsecond hvertex hvertex' hne rfl color
    dsimp only
    rw [hrun]
    exact ⟨first, second, relays, final, rfl, rfl, fun _ _ => hwalks.iff, hlength,
      hdraws.joined (by simp), hdraws, hspaced⟩
  · rw [he]
    obtain ⟨relays, final, hrun, hlength, hwalks, hdraws, hspaced⟩ := overRelays_walks hf
      ⟨hsound, hpoles⟩ hsecond hfirst hvertex' hvertex hne.symm rfl color
    dsimp only
    rw [hrun]
    rw [wayAlong_swap, Int.natAbs_neg] at hlength
    exact ⟨second, first, relays, final, rfl, rfl, fun _ _ => hwalks.iff, hlength,
      .symm _ _ (hdraws.joined (by simp)), hdraws, hspaced⟩

/-- Two relays twenty tiles apart, and a combinator on the lane between them. -/
def apart : Draft :=
  { Draft.empty with
    blueprint := Blueprint.after
      [.create .decider ⟨7, -3⟩, .create .relay ⟨0, 0⟩, .create .relay ⟨20, 0⟩] }

/-- The first relay of a route across a combinator is moved outward, and the second one follows it.
-/
theorem route_exact_apart :
    apart.blueprint.find? ⟨7, -2⟩ = some 2 ∧
    ∃ (relays : List EntityId) (final : Draft),
      (route (.outermost .origin) ⟨0, .input⟩ ⟨1, .input⟩ .red).run apart =
        ((), { final with
          routes := ⟨.outermost .origin, ⟨0, .input⟩, ⟨1, .input⟩, .red, relays⟩ :: final.routes }) ∧
      relays.length = 2 ∧ final.blueprint.Joined .red ⟨0, .input⟩ ⟨1, .input⟩ := by
  have hsound : apart.blueprint.Sound := Blueprint.sound_create (Blueprint.sound_create
    (Blueprint.sound_create Blueprint.tidy_empty.sound))
  obtain ⟨⟨source, target, relays, final, -, hrun, -, hlength, hjoined, -⟩, -⟩ :=
    @route_exact apart (.outermost .origin) ⟨0, .input⟩ ⟨1, .input⟩ hsound
      (fun pole hmem => absurd hmem List.not_mem_nil) rfl (by decide) (by decide) (by decide)
      (by decide) (by decide) .red
  refine ⟨by decide, relays, final, hrun, hlength.trans ?_, hjoined⟩
  decide

end CircuitScript.Layout
