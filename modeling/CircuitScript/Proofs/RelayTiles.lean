import CircuitScript.Proofs.LayoutEffects
import CircuitScript.Proofs.Occupancy
import CircuitScript.Proofs.RouteChain
/-!
The tiles of relays. Which tiles a route goes over can be told from where its ends and the combinators
stand in the finished layout: each relay is on the first tile, from its slot outward, that no
combinator lies on. Nothing is ever put on the tile of a relay, so what was in the way of a route
when it was drawn is what is in its way at the end.
-/
namespace CircuitScript

/-- A combinator lies on the tile. -/
def Blueprint.Taken (blueprint : Blueprint) (tile : Position) : Prop :=
  ∃ id entity, blueprint.entity? id = some entity ∧ entity.kind ≠ .relay ∧ tile ∈ entity.tiles

theorem Blueprint.Taken.extends {before after : Blueprint} {tile : Position} (h : before.Taken tile)
    (he : before.Extends after) : after.Taken tile := by
  obtain ⟨id, entity, hentity, hkind, ht⟩ := h
  exact ⟨id, entity, he.entity hentity, hkind, ht⟩

namespace Layout

variable {draft before after : Draft} {frame : Frame} {color : Color} {blueprint : Blueprint}
  {outward stride slot tile : Position} {tiles others : List Position} {anchor terminal : Terminal}
  {n : Nat}

/-- Tiles for relays, from a slot on. Each is outward from its slot, past tiles that combinators lie
on, and the next slot is a stride from it. -/
inductive Trail (blueprint : Blueprint) (outward stride : Position) :
    Position → List Position → Prop
  | nil {slot : Position} : Trail blueprint outward stride slot []
  | cons {slot : Position} {tiles : List Position} (k : Nat)
      (hpassed : ∀ i : Nat, i < k → blueprint.Taken (slot + outward.scale i))
      (rest : Trail blueprint outward stride (slot + outward.scale k + stride) tiles) :
      Trail blueprint outward stride slot ((slot + outward.scale k) :: tiles)

theorem Trail.extends (h : Trail before.blueprint outward stride slot tiles)
    (he : before.blueprint.Extends after.blueprint) :
    Trail after.blueprint outward stride slot tiles := by
  induction h with
  | nil => exact .nil
  | cons k hpassed _ ih => exact .cons k (fun i hi => (hpassed i hi).extends he) ih

/-- There is one way to reach free tiles. -/
theorem Trail.unique (h : Trail blueprint outward stride slot tiles)
    (h' : Trail blueprint outward stride slot others) (hl : tiles.length = others.length)
    (hf : ∀ tile ∈ tiles, ¬ blueprint.Taken tile) (hf' : ∀ tile ∈ others, ¬ blueprint.Taken tile) :
    tiles = others := by
  induction h generalizing others with
  | nil => exact (List.length_eq_zero_iff.mp hl.symm).symm
  | cons k hpassed _ ih =>
    cases h' with
    | nil => cases hl
    | cons k' hpassed' rest' =>
      -- Whoever stopped first would have stopped on a tile that the other one passed.
      have hk : k = k' := by
        rcases Nat.lt_trichotomy k k' with hlt | heq | hgt
        · exact absurd (hpassed' k hlt) (hf _ List.mem_cons_self)
        · exact heq
        · exact absurd (hpassed k' hgt) (hf' _ List.mem_cons_self)
      subst hk
      rw [ih rest' (Nat.succ.inj hl) (fun tile ht => hf tile (List.mem_cons_of_mem _ ht))
        fun tile ht => hf' tile (List.mem_cons_of_mem _ ht)]

/-- Relays stand one by one on some tiles. -/
def StandOver (draft : Draft) (relays : List EntityId) (tiles : List Position) : Prop :=
  List.Forall₂ (fun relay tile => draft.blueprint.isRelay relay = true ∧ StandsOn draft relay tile)
    relays tiles

namespace Route

/-- How far a route goes along the direction of its construct, from the end that it starts at. -/
def way (draft : Draft) (route : Route) : Int :=
  let (source, target) := orderedEnds draft route.first route.second
  wayAlong draft route.frame source target

/-- The slot of the first relay, on the lane of the construct. -/
def firstSlot (draft : Draft) (route : Route) : Position :=
  draft.place (orderedEnds draft route.first route.second).1 +
    strideOf route.frame (route.way draft) +
    route.frame.direction.turnRight.scale (route.frame.depth + 1)

/-- The tiles that a route goes over, as told by where its ends and the combinators stand. -/
structure Passes (draft : Draft) (route : Route) (tiles : List Position) : Prop where
  length : tiles.length = (route.way draft).natAbs ⌈/⌉ reach route.frame.depth - 1
  trail : Trail draft.blueprint route.frame.direction.turnRight
    (strideOf route.frame (route.way draft)) (route.firstSlot draft) tiles
  free : ∀ tile ∈ tiles, ¬ draft.blueprint.Taken tile

/-- The ends of a route exist, and its relays stand where it led when it was drawn. -/
structure Charted (draft : Draft) (route : Route) : Prop where
  first : route.first.entity < draft.blueprint.size
  second : route.second.entity < draft.blueprint.size
  tiles : ∃ tiles, tiles.length = (route.way draft).natAbs ⌈/⌉ reach route.frame.depth - 1 ∧
    Trail draft.blueprint route.frame.direction.turnRight
      (strideOf route.frame (route.way draft)) (route.firstSlot draft) tiles ∧
    StandOver draft route.relays tiles

end Route

variable {route : Route}

theorem place_extends (h : terminal.entity < before.blueprint.size)
    (he : before.blueprint.Extends after.blueprint) : after.place terminal = before.place terminal := by
  obtain ⟨entity, hentity⟩ := Blueprint.entity?_eq_some_iff.mpr h
  exact (run_positionOf (he.entity hentity)).trans (run_positionOf hentity).symm

/-- Where the ends of a route stand is all that its way depends on. -/
theorem way_extends (hf : route.first.entity < before.blueprint.size)
    (hs : route.second.entity < before.blueprint.size)
    (he : before.blueprint.Extends after.blueprint) :
    route.way after = route.way before ∧ route.firstSlot after = route.firstSlot before := by
  have hends : orderedEnds after route.first route.second =
      orderedEnds before route.first route.second := by
    rw [orderedEnds, orderedEnds, place_extends hf he, place_extends hs he]
  have hway : route.way after = route.way before := by
    rw [Route.way, Route.way, hends]
    rcases orderedEnds_cases before route.first route.second with h | h
    · rw [h]
      exact congrArg (Position.along · _) (by rw [place_extends hf he, place_extends hs he])
    · rw [h]
      exact congrArg (Position.along · _) (by rw [place_extends hf he, place_extends hs he])
  refine ⟨hway, ?_⟩
  rw [Route.firstSlot, Route.firstSlot, hway, hends]
  rcases orderedEnds_cases before route.first route.second with h | h
  · rw [h, place_extends hf he]
  · rw [h, place_extends hs he]

theorem StandOver.extends {relays : List EntityId} (h : StandOver before relays tiles)
    (he : before.blueprint.Extends after.blueprint) : StandOver after relays tiles :=
  h.imp fun _ _ hr => ⟨he.grows.isRelay_of_isRelay hr.1, hr.2.extends he⟩

/-- What is added later changes no route. -/
theorem Route.Charted.extends (h : route.Charted before)
    (he : before.blueprint.Extends after.blueprint) : route.Charted after := by
  obtain ⟨hway, hslot⟩ := way_extends h.first h.second he
  obtain ⟨tiles, hlength, htrail, hstands⟩ := h.tiles
  refine ⟨he.grows.lt h.first, he.grows.lt h.second, tiles, ?_, ?_, hstands.extends he⟩
  · rw [hway]
    exact hlength
  · rw [hway, hslot]
    exact htrail.extends he

theorem taken_of_blocked (hs : draft.blueprint.Sound)
    (hb : blocked draft.blueprint draft.poles tile = true) : draft.blueprint.Taken tile := by
  simp only [blocked, Bool.and_eq_true, Option.any_eq_true] at hb
  obtain ⟨-, id, hfind, hrelay⟩ := hb
  obtain ⟨entity, hentity, ht⟩ := hs tile id hfind
  refine ⟨id, entity, hentity, fun hk => ?_, ht⟩
  simp [Blueprint.isRelay, hentity, hk] at hrelay

/-- The search for a relay goes past blocked tiles only. -/
theorem firstOpen_eq {poles : List EntityId} :
    ∃ k : Nat, firstOpen blueprint poles outward n tile = tile + outward.scale k ∧
      ∀ i : Nat, i < k → blocked blueprint poles (tile + outward.scale i) = true := by
  induction n generalizing tile with
  | zero => exact ⟨0, (add_scale_zero tile outward).symm, nofun⟩
  | succ n ih =>
    rw [firstOpen]
    split
    · next hb =>
      obtain ⟨k, hk, hpassed⟩ := @ih (tile + outward)
      refine ⟨k + 1, hk.trans (add_scale_succ tile outward k), fun i hi => ?_⟩
      cases i with
      | zero =>
        rw [add_scale_zero]
        exact hb
      | succ i =>
        rw [← add_scale_succ]
        exact hpassed i (Nat.lt_of_succ_lt_succ hi)
    · exact ⟨0, (add_scale_zero tile outward).symm, nofun⟩

/-- The relays that a terminal is wired over stand on a trail. -/
theorem hop_trail (hg : draft.Grounded) (hs : draft.blueprint.Sound) (hf : frame.Upright)
    (ha : anchor.entity < draft.blueprint.size) :
    ∃ tiles, tiles.length = n ∧
      Trail ((hop frame color stride n anchor slot).run draft).2.blueprint
        frame.direction.turnRight stride slot tiles ∧
      StandOver ((hop frame color stride n anchor slot).run draft).2
        ((hop frame color stride n anchor slot).run draft).1 tiles := by
  induction n generalizing draft anchor slot with
  | zero => exact ⟨[], rfl, .nil, .nil⟩
  | succ n ih =>
    obtain ⟨k, hk, hpassed⟩ := @firstOpen_eq draft.blueprint frame.direction.turnRight slot
      draft.blueprint.grid.entries.length draft.poles
    obtain ⟨relay, linked, hhops, hrun⟩ := @exists_hops draft frame color slot (fun _ => True) n
      stride anchor hg hs hf ha fun _ _ => trivial
    rw [openTile, hk] at hhops hrun
    have hknown : relay < linked.blueprint.size := Blueprint.lt_of_isRelay hhops.isRelay
    obtain ⟨tiles, hlength, htrail, hover⟩ := @ih linked
      (slot + frame.direction.turnRight.scale k + stride) ⟨relay, .input⟩ hhops.grounded hhops.sound
      hknown
    have hlater := strokes_extends (@hop_strokes linked frame color
      (slot + frame.direction.turnRight.scale k + stride) (fun _ => True) stride n
      ⟨relay, .input⟩ hhops.grounded hhops.sound hf hknown fun _ _ _ _ => trivial)
    have hall := (strokes_extends hhops.strokes).trans hlater
    rw [hrun]
    exact ⟨_ :: tiles, congrArg (· + 1) hlength,
      .cons k (fun i hi => (taken_of_blocked hs (hpassed i hi)).extends hall) htrail,
      .cons ⟨hlater.grows.isRelay_of_isRelay hhops.isRelay, hhops.stands.extends hlater⟩ hover⟩

theorem act_extends (h : Act before after) (hg : before.Grounded) (hs : before.blueprint.Sound) :
    before.blueprint.Extends after.blueprint := by
  cases h with
  | relay tile => exact Blueprint.extends_push Blueprint.entities_create rfl
  | stand frame condition feeds => exact Blueprint.extends_push entities_bare wires_bare
  | route color hf ha hb => exact strokes_extends (route_strokes_anywhere hg hs hf ha hb color)
  | note hb hr hg' => exact hb ▸ .refl _

/-- Entities are found only where they lie, and every route is charted. -/
structure Charts (draft : Draft) : Prop where
  sound : draft.blueprint.Sound
  routes : ∀ route ∈ draft.routes, route.Charted draft

theorem Charts.extends (h : Charts before) (he : before.blueprint.Extends after.blueprint)
    (hs : after.blueprint.Sound) (hr : after.routes = before.routes) : Charts after := by
  refine ⟨hs, fun route hm => (h.routes route ?_).extends he⟩
  rwa [← hr]

theorem overRelays_trail {source target : Terminal} (hg : draft.Grounded)
    (hs : draft.blueprint.Sound) (hf : frame.Upright) (ha : source.entity < draft.blueprint.size) :
    ∃ tiles, tiles.length = n ∧
      Trail ((overRelays frame color stride n slot source target).run draft).2.blueprint
        frame.direction.turnRight stride slot tiles ∧
      StandOver ((overRelays frame color stride n slot source target).run draft).2
        ((overRelays frame color stride n slot source target).run draft).1 tiles := by
  have hrun : (overRelays frame color stride n slot source target).run draft =
      let laid := (hop frame color stride n source slot).run draft
      (laid.1, ((link (lastStop source laid.1) target color).run laid.2).2) := rfl
  rw [hrun]
  obtain ⟨tiles, hlength, htrail, hover⟩ := @hop_trail draft frame color stride slot source n hg hs
    hf ha
  exact ⟨tiles, hlength, htrail.extends Blueprint.extends_connect,
    hover.extends Blueprint.extends_connect⟩

/-- A new route is charted when it is drawn. -/
theorem route_charted {first second : Terminal} (hg : draft.Grounded) (hs : draft.blueprint.Sound)
    (hf : frame.Upright) (ha : first.entity < draft.blueprint.size)
    (hb : second.entity < draft.blueprint.size) (color : Color) :
    ∃ relays, ((Layout.route frame first second color).run draft).2.routes =
        ⟨frame, first, second, color, relays⟩ :: draft.routes ∧
      Route.Charted ((Layout.route frame first second color).run draft).2
        ⟨frame, first, second, color, relays⟩ := by
  have hextend := strokes_extends (route_strokes_anywhere hg hs hf ha hb color)
  have hends : (orderedEnds draft first second).1.entity < draft.blueprint.size ∧
      (orderedEnds draft first second).2.entity < draft.blueprint.size := by
    rcases orderedEnds_cases draft first second with he | he <;> rw [he]
    · exact ⟨ha, hb⟩
    · exact ⟨hb, ha⟩
  rw [run_route] at hextend ⊢
  dsimp only at hextend ⊢
  obtain ⟨relays, final, hrun, hlays, -⟩ := overRelays_spec hg hf hends.1 hends.2 color
    (strideOf frame (wayAlong draft frame (orderedEnds draft first second).1
      (orderedEnds draft first second).2)) _ _
  obtain ⟨tiles, hlength, htrail, hover⟩ := overRelays_trail hg hs hf hends.1
  rw [hrun] at htrail hover hextend ⊢
  obtain ⟨hway, hslot⟩ := @way_extends draft _ ⟨frame, first, second, color, relays⟩ ha hb hextend
  refine ⟨relays, congrArg (_ :: ·) hlays.routes, hextend.grows.lt ha, hextend.grows.lt hb, tiles,
    ?_, ?_, hover⟩
  · rw [hway, hlength]
    exact pred_div_eq (reach_pos _)
  · rw [hway, hslot]
    exact htrail

theorem act_charts (h : Act before after) (hg : before.Grounded) (hc : Charts before) :
    Charts after := by
  have hextend := act_extends h hg hc.sound
  have hsound := act_sound h hg hc.sound
  cases h with
  | relay tile => exact hc.extends hextend hsound rfl
  | stand frame condition feeds => exact hc.extends hextend hsound rfl
  | route color hf ha hb =>
    obtain ⟨relays, hroutes, hnew⟩ := route_charted hg hc.sound hf ha hb color
    refine ⟨hsound, fun route hm => ?_⟩
    rw [hroutes] at hm
    rcases List.mem_cons.mp hm with rfl | hm
    · exact hnew
    · exact (hc.routes route hm).extends hextend
  | note hb hr hg' => exact hc.extends hextend hsound hr

theorem charts_draft (script : Script) : Charts script.draft.2 :=
  draft_induction ⟨sound_empty, fun _ hm => absurd hm List.not_mem_nil⟩ act_charts script

/-- Where nothing lies on top of each other, only one entity stands on a tile. -/
theorem StandsOn.eq {id other : EntityId} (ht : draft.blueprint.Tidy) (h : StandsOn draft id tile)
    (h' : StandsOn draft other tile) : id = other := by
  obtain ⟨entity, he, rfl⟩ := h
  obtain ⟨entity', he', hp⟩ := h'
  refine ht.disjoint he he' entity.position_mem_tiles ?_
  rw [← hp]
  exact entity'.position_mem_tiles

/-- No combinator lies on the tile of a relay. -/
theorem not_taken {relay : EntityId} (ht : draft.blueprint.Tidy)
    (hr : draft.blueprint.isRelay relay = true) (h : StandsOn draft relay tile) :
    ¬ draft.blueprint.Taken tile := by
  rintro ⟨id, entity, he, hkind, hm⟩
  obtain ⟨pole, hpole, rfl⟩ := h
  cases ht.disjoint hpole he pole.position_mem_tiles hm
  cases hpole.symm.trans he
  exact hkind (by simpa [Blueprint.isRelay, hpole] using hr)

theorem StandOver.exists_tile {relays : List EntityId} {relay : EntityId}
    (h : StandOver draft relays tiles) (hm : relay ∈ relays) :
    draft.blueprint.isRelay relay = true ∧ ∃ tile ∈ tiles, StandsOn draft relay tile := by
  induction h with
  | nil => cases hm
  | cons hr _ ih =>
    rcases List.mem_cons.mp hm with rfl | hm
    · exact ⟨hr.1, _, List.mem_cons_self, hr.2⟩
    · obtain ⟨hrelay, tile, ht, hstands⟩ := ih hm
      exact ⟨hrelay, tile, List.mem_cons_of_mem _ ht, hstands⟩

theorem StandOver.exists_relay {relays : List EntityId} (h : StandOver draft relays tiles)
    (hm : tile ∈ tiles) :
    ∃ relay ∈ relays, draft.blueprint.isRelay relay = true ∧ StandsOn draft relay tile := by
  induction h with
  | nil => cases hm
  | cons hr _ ih =>
    rcases List.mem_cons.mp hm with rfl | hm
    · exact ⟨_, List.mem_cons_self, hr⟩
    · obtain ⟨relay, hrelay, hstands⟩ := ih hm
      exact ⟨relay, List.mem_cons_of_mem _ hrelay, hstands⟩

/-- In a tidy layout a route goes over one row of tiles, on which its relays stand. -/
theorem Route.Charted.passes (h : route.Charted draft) (ht : draft.blueprint.Tidy) :
    ∃ tiles, (∀ others, route.Passes draft others ↔ others = tiles) ∧
      StandOver draft route.relays tiles := by
  obtain ⟨tiles, hlength, htrail, hover⟩ := h.tiles
  have hfree : ∀ tile ∈ tiles, ¬ draft.blueprint.Taken tile := by
    intro tile hm
    obtain ⟨relay, -, hr, hstands⟩ := hover.exists_relay hm
    exact not_taken ht hr hstands
  refine ⟨tiles, fun others => ⟨fun hp => ?_, ?_⟩, hover⟩
  · exact hp.trail.unique htrail (hp.length.trans hlength.symm) hp.free hfree
  · rintro rfl
    exact ⟨hlength, htrail, hfree⟩

end Layout

end CircuitScript
