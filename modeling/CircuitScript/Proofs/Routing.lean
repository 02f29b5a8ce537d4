import CircuitScript.Layout.Route
import CircuitScript.Proofs.Wiring
/-!
Routes. A route goes from relay to relay, and all of it, both ends included, is on one network
afterwards; no other wire is drawn.
-/
namespace CircuitScript.Layout

variable {before after later draft : Draft} {frame : Frame} {color : Color} {tile : Position}
  {ends ends' : List Terminal} {a b first second : Terminal} {blueprint : Blueprint}
  {poles : List EntityId} {outward : Position}

/-- The direction of the frame is one tile long. -/
def Frame.Upright (frame : Frame) : Prop := frame.direction.along frame.direction = 1

/-- The draft mentions only what exists, and its poles are relays. -/
structure Draft.Grounded (draft : Draft) : Prop where
  indexed : draft.blueprint.Indexed
  poles : ∀ pole ∈ draft.poles, draft.blueprint.isRelay pole = true
  requests : ∀ readers ∈ draft.requests.toList, ∀ id ∈ readers, id < draft.blueprint.size

/-- From one draft to the other, wires of one colour were drawn among some terminals, so that these
are all on one network; else nothing but entities was added. -/
structure Lays (color : Color) (ends : List Terminal) (before after : Draft) : Prop where
  grows : before.blueprint.Grows after.blueprint
  grounded : after.Grounded
  added : ∀ wire ∈ after.blueprint.wires, wire ∈ before.blueprint.wires ∨
    (wire.a ∈ ends ∧ wire.b ∈ ends ∧ wire.color = color)
  joined : ∀ a ∈ ends, ∀ b ∈ ends, after.blueprint.Joined color a b
  routes : after.routes = before.routes
  placements : after.placements = before.placements

theorem Lays.refl (h : draft.Grounded) : Lays color [] draft draft :=
  ⟨.refl _, h, fun _ hw => .inl hw, by simp, rfl, rfl⟩

theorem Lays.point (h : draft.Grounded) (a : Terminal) : Lays color [a] draft draft := by
  refine ⟨.refl _, h, fun _ hw => .inl hw, ?_, rfl, rfl⟩
  intro x hx y hy
  rw [List.mem_singleton.mp hx, List.mem_singleton.mp hy]
  exact .refl _

theorem Lays.congr (h : Lays color ends before after) (he : ∀ x, x ∈ ends ↔ x ∈ ends') :
    Lays color ends' before after where
  grows := h.grows
  grounded := h.grounded
  added := by
    intro wire hw
    rcases h.added wire hw with ho | ⟨ha, hb, hc⟩
    · exact .inl ho
    · exact .inr ⟨(he _).mp ha, (he _).mp hb, hc⟩
  joined := fun a ha b hb => h.joined a ((he a).mpr ha) b ((he b).mpr hb)
  routes := h.routes
  placements := h.placements

/-- Two pieces with a terminal in common make one. -/
theorem Lays.trans (h : Lays color ends before after) (h' : Lays color ends' after later)
    (hs : ∀ x ∈ ends, ∃ y ∈ ends, y ∈ ends') : Lays color (ends ++ ends') before later where
  grows := h.grows.trans h'.grows
  grounded := h'.grounded
  added := by
    intro wire hw
    rcases h'.added wire hw with ho | ⟨ha, hb, hc⟩
    · rcases h.added wire ho with ho | ⟨ha, hb, hc⟩
      · exact .inl ho
      · exact .inr ⟨List.mem_append_left _ ha, List.mem_append_left _ hb, hc⟩
    · exact .inr ⟨List.mem_append_right _ ha, List.mem_append_right _ hb, hc⟩
  joined := by
    -- Every terminal of the first piece is joined to the common one, which is in the second.
    have hl : ∀ x ∈ ends, ∀ y ∈ ends', later.blueprint.Joined color x y := by
      intro x hx y hy
      obtain ⟨z, hz, hz'⟩ := hs x hx
      exact ((h.joined x hx z hz).mono h'.grows).trans _ _ _ (h'.joined z hz' y hy)
    intro a ha b hb
    rcases List.mem_append.mp ha with ha | ha <;> rcases List.mem_append.mp hb with hb | hb
    · exact (h.joined a ha b hb).mono h'.grows
    · exact hl a ha b hb
    · exact .symm _ _ (hl b hb a ha)
    · exact h'.joined a ha b hb
  routes := h'.routes.trans h.routes
  placements := h'.placements.trans h.placements

theorem Lays.quiet_trans (h : Lays color [] before after) (h' : Lays color ends after later) :
    Lays color ends before later := h.trans h' (by simp)

theorem Draft.Grounded.of_grows (h : before.Grounded)
    (hg : before.blueprint.Grows after.blueprint) (hi : after.blueprint.Indexed)
    (hp : after.poles = before.poles) (hr : after.requests = before.requests) :
    after.Grounded where
  indexed := hi
  poles := by
    intro pole hm
    rw [hp] at hm
    exact hg.isRelay_of_isRelay (h.poles pole hm)
  requests := by
    intro readers hm id hid
    rw [hr] at hm
    exact hg.lt (h.requests readers hm id hid)

theorem lays_put {kind : Kind} (h : draft.Grounded) :
    Lays color [] draft ((put kind tile).run draft).2 where
  grows := Blueprint.grows_create
  grounded := h.of_grows Blueprint.grows_create (Blueprint.indexed_create h.indexed) rfl rfl
  added := fun _ hw => .inl hw
  joined := by simp
  routes := rfl
  placements := rfl

theorem lays_link (h : draft.Grounded) :
    Lays color [draft.blueprint.vertex a, draft.blueprint.vertex b] draft
      ((link a b color).run draft).2 where
  grows := Blueprint.grows_connect
  grounded := h.of_grows Blueprint.grows_connect (Blueprint.indexed_connect h.indexed) rfl rfl
  added := by
    intro wire hw
    rcases Blueprint.mem_wires_connect.mp hw with ho | ⟨-, rfl⟩
    · exact .inl ho
    · exact .inr (Blueprint.mem_of_between List.mem_cons_self
        (List.mem_cons_of_mem _ List.mem_cons_self))
  joined := by
    intro x hx y hy
    have hj := @Blueprint.joined_connect draft.blueprint a.entity color a.side b.side b.entity
    simp only [List.mem_cons, List.not_mem_nil, or_false] at hx hy
    rcases hx with rfl | rfl <;> rcases hy with rfl | rfl
    · exact .refl _
    · exact hj
    · exact .symm _ _ hj
    · exact .refl _
  routes := rfl
  placements := rfl

/-- Only a tile on which something is found is blocked. -/
theorem mem_of_blocked (h : blocked blueprint poles tile = true) :
    tile ∈ blueprint.grid.entries.map Prod.fst := by
  simp only [blocked, Bool.and_eq_true, Option.any_eq_true] at h
  obtain ⟨-, id, hf, -⟩ := h
  obtain ⟨front, back, he, -⟩ := List.lookup_eq_some_iff.mp hf
  rw [he]
  simp

theorem add_scale_zero (tile outward : Position) : tile + outward.scale (0 : Nat) = tile := by
  show Position.mk _ _ = tile
  simp [Position.scale]

theorem add_scale_succ (tile outward : Position) (k : Nat) :
    tile + outward + outward.scale k = tile + outward.scale (k + 1 : Nat) := by
  have hx : ∀ x y : Int, x + y + y * k = x + y * (k + 1 : Nat) := by
    intro x y
    rw [Int.natCast_succ, Int.mul_add]
    omega
  show Position.mk _ _ = Position.mk _ _
  rw [Position.mk.injEq]
  exact ⟨hx _ _, hx _ _⟩

/-- If the way outward ends at a blocked tile, all of it is blocked. -/
theorem blocked_of_firstOpen {n : Nat}
    (h : blocked blueprint poles (firstOpen blueprint poles outward n tile) = true) :
    ∀ k ≤ n, blocked blueprint poles (tile + outward.scale k) = true := by
  induction n generalizing tile with
  | zero =>
    intro k hk
    rw [Nat.le_zero.mp hk, add_scale_zero]
    exact h
  | succ n ih =>
    unfold firstOpen at h
    split at h
    · next hb =>
      intro k hk
      cases k with
      | zero =>
        rw [add_scale_zero]
        exact hb
      | succ k =>
        rw [← add_scale_succ]
        exact ih h k (by omega)
    · next hb => exact absurd h hb

theorem scale_injective (ho : outward ≠ .origin) {j k : Nat}
    (h : tile + outward.scale j = tile + outward.scale k) : j = k := by
  have hx := congrArg Position.x h
  have hy := congrArg Position.y h
  simp only [Position.add_x, Position.add_y, Position.scale, Int.add_right_inj] at hx hy
  by_cases hox : outward.x = 0
  · have hoy : outward.y ≠ 0 := by
      intro hoy
      apply ho
      cases outward
      simp_all [Position.origin]
    exact Int.ofNat.inj (Int.eq_of_mul_eq_mul_left hoy hy)
  · exact Int.ofNat.inj (Int.eq_of_mul_eq_mul_left hox hx)

/-- There are more tiles on the way than tiles that are taken, so some tile is open. -/
theorem not_blocked_firstOpen (ho : outward ≠ .origin) :
    blocked blueprint poles
      (firstOpen blueprint poles outward blueprint.grid.entries.length tile) = false := by
  rw [← Bool.not_eq_true]
  intro h
  have hb := blocked_of_firstOpen h
  let way := (List.range (blueprint.grid.entries.length + 1)).map
    fun k : Nat => tile + outward.scale k
  have hn : way.Nodup := by
    apply List.Pairwise.map _ _ List.nodup_range
    intro j k hjk he
    exact hjk (scale_injective ho he)
  have hs : way ⊆ blueprint.grid.entries.map Prod.fst := by
    intro place hp
    obtain ⟨k, hk, rfl⟩ := List.mem_map.mp hp
    exact mem_of_blocked (hb k (by rw [List.mem_range] at hk; omega))
  have hl := hn.length_le_of_subset hs
  simp only [way, List.length_map, List.length_range] at hl
  omega

theorem eq_origin_of_turnRight {p : Position} (h : p.turnRight = .origin) : p = .origin := by
  obtain ⟨x, y⟩ := p
  simp only [Position.turnRight, Position.origin, Position.mk.injEq] at h ⊢
  omega

theorem turnRight_ne (h : frame.Upright) : frame.direction.turnRight ≠ .origin := by
  intro he
  rw [Frame.Upright, eq_origin_of_turnRight he] at h
  cases h

/-- The tile on which a relay is looked for. -/
def openTile (draft : Draft) (frame : Frame) (tile : Position) : Position :=
  firstOpen draft.blueprint draft.poles frame.direction.turnRight
    draft.blueprint.grid.entries.length tile

/-- The relay that stands on a tile already. -/
def standing? (draft : Draft) (tile : Position) : Option EntityId :=
  poleAt? draft.blueprint draft.poles tile <|> draft.blueprint.find? tile

/-- The relay that stands on a tile, or a new one. -/
def relayOn (tile : Position) : Option EntityId → Build EntityId
  | some id => return id
  | none => do
    let id ← put .relay tile
    modify fun draft => { draft with poles := draft.poles ++ [id] }
    return id

theorem relayAt_eq :
    relayAt frame tile = (do
      let draft ← get
      relayOn (openTile draft frame tile) (standing? draft (openTile draft frame tile))) := by
  unfold relayAt
  congr 1

theorem run_relayAt :
    (relayAt frame tile).run draft =
      (relayOn (openTile draft frame tile) (standing? draft (openTile draft frame tile))).run
        draft := by
  rw [relayAt_eq, StateT.run_bind, StateT.run_get]
  exact pure_bind _ _

theorem isRelay_of_standing? (h : draft.Grounded) {id : EntityId}
    (hb : blocked draft.blueprint draft.poles tile = false) (hs : standing? draft tile = some id) :
    draft.blueprint.isRelay id = true := by
  unfold standing? at hs
  cases hp : poleAt? draft.blueprint draft.poles tile with
  | some pole =>
    rw [hp] at hs
    cases hs
    exact h.poles _ (List.mem_of_find?_eq_some hp)
  | none =>
    rw [hp] at hs
    have hs : draft.blueprint.find? tile = some id := hs
    simpa [blocked, hp, hs] using hb

/-- What a route is hung on is a relay, whether it was there before or not. -/
theorem relayAt_spec (h : draft.Grounded) (hf : frame.Upright) (tile : Position) (color : Color) :
    Lays color [] draft ((relayAt frame tile).run draft).2 ∧
      ((relayAt frame tile).run draft).2.blueprint.isRelay ((relayAt frame tile).run draft).1 =
        true := by
  have hb : blocked draft.blueprint draft.poles (openTile draft frame tile) = false :=
    not_blocked_firstOpen (turnRight_ne hf)
  cases hs : standing? draft (openTile draft frame tile) with
  | some id =>
    rw [run_relayAt, hs]
    exact ⟨.refl h, isRelay_of_standing? h hb hs⟩
  | none =>
    rw [run_relayAt, hs]
    have hr := @Blueprint.isRelay_create draft.blueprint (openTile draft frame tile)
    have hl := @lays_put draft color (openTile draft frame tile) .relay h
    refine ⟨⟨hl.grows, ⟨hl.grounded.indexed, ?_, hl.grounded.requests⟩, hl.added, hl.joined, rfl,
      rfl⟩, hr⟩
    intro pole hm
    rcases List.mem_append.mp hm with hm | hm
    · exact hl.grounded.poles pole hm
    · rw [List.mem_singleton.mp hm]
      exact hr

/-- The terminals that a route goes over. -/
def stops (relays : List EntityId) : List Terminal := relays.map (⟨·, .input⟩)

theorem hop_succ {stride : Position} {n : Nat} {anchor : Terminal} :
    (hop frame color stride (n + 1) anchor tile).run draft =
      let (relay, placed) := (relayAt frame tile).run draft
      let linked := ((link anchor ⟨relay, .input⟩ color).run placed).2
      let next := ((positionOf relay).run linked).1 + stride
      let (relays, final) := (hop frame color stride n ⟨relay, .input⟩ next).run linked
      (relay :: relays, final) := rfl

/-- A terminal that is wired over relays is on one network with all of them. -/
theorem hop_spec {stride : Position} {n : Nat} {anchor : Terminal} (h : draft.Grounded)
    (hf : frame.Upright) (ha : anchor.entity < draft.blueprint.size) :
    Lays color
      (draft.blueprint.vertex anchor :: stops ((hop frame color stride n anchor tile).run draft).1)
      draft ((hop frame color stride n anchor tile).run draft).2 ∧
    ∀ relay ∈ ((hop frame color stride n anchor tile).run draft).1,
      ((hop frame color stride n anchor tile).run draft).2.blueprint.isRelay relay = true := by
  induction n generalizing draft anchor tile with
  | zero => exact ⟨.point h _, fun relay hr => absurd hr List.not_mem_nil⟩
  | succ n ih =>
    rw [hop_succ]
    obtain ⟨hp, hr⟩ := relayAt_spec h hf tile color
    generalize (relayAt frame tile).run draft = placed at hp hr ⊢
    obtain ⟨relay, placed⟩ := placed
    dsimp only at hp hr ⊢
    have hl := @lays_link placed color anchor ⟨relay, .input⟩ hp.grounded
    rw [hp.grows.vertex ha, Blueprint.vertex_input] at hl
    generalize ((link anchor ⟨relay, .input⟩ color).run placed).2 = linked at hl ⊢
    have hk : relay < linked.blueprint.size := hl.grows.lt (Blueprint.lt_of_isRelay hr)
    obtain ⟨hn, hs⟩ := @ih linked (((positionOf relay).run linked).1 + stride) ⟨relay, .input⟩
      hl.grounded hk
    generalize (hop frame color stride n ⟨relay, .input⟩
      (((positionOf relay).run linked).1 + stride)).run linked = final at hn hs ⊢
    obtain ⟨relays, final⟩ := final
    dsimp only at hn hs ⊢
    rw [Blueprint.vertex_input] at hn
    constructor
    · refine (hp.quiet_trans (hl.trans hn ?_)).congr ?_
      · intro x _
        exact ⟨⟨relay, .input⟩, by simp, by simp⟩
      · intro x
        simp only [stops, List.mem_append, List.mem_cons, List.map_cons, List.not_mem_nil]
        grind
    · intro id hid
      rcases List.mem_cons.mp hid with rfl | hid
      · exact (hl.grows.trans hn.grows).isRelay_of_isRelay hr
      · exact hs id hid

/-- Everything that a route joins. -/
def Route.vertices (route : Route) (blueprint : Blueprint) : List Terminal :=
  blueprint.vertex route.first :: blueprint.vertex route.second :: stops route.relays

/-- The terminal that is left to go on from after some relays. -/
def lastStop (source : Terminal) (relays : List EntityId) : Terminal :=
  (relays.getLast?.map (⟨·, .input⟩)).getD source

theorem lastStop_cases (source : Terminal) (relays : List EntityId) :
    lastStop source relays = source ∨ lastStop source relays ∈ stops relays := by
  unfold lastStop
  cases h : relays.getLast? with
  | none => exact .inl rfl
  | some id => exact .inr (List.mem_map_of_mem (List.mem_of_getLast? h))

/-- A way over relays from one terminal to the other. -/
def overRelays (frame : Frame) (color : Color) (stride : Position) (n : Nat) (tile : Position)
    (source target : Terminal) : Build (List EntityId) := do
  let relays ← hop frame color stride n source tile
  link (lastStop source relays) target color
  return relays

theorem overRelays_spec (h : draft.Grounded) (hf : frame.Upright)
    (ha : a.entity < draft.blueprint.size) (hb : b.entity < draft.blueprint.size)
    (color : Color) (stride : Position) (n : Nat) (tile : Position) :
    ∃ relays final, (overRelays frame color stride n tile a b).run draft = (relays, final) ∧
      Lays color (Route.vertices ⟨frame, a, b, color, relays⟩ draft.blueprint) draft final ∧
      ∀ relay ∈ relays, final.blueprint.isRelay relay = true := by
  obtain ⟨hl, hr⟩ := @hop_spec draft frame color tile stride n a h hf ha
  have hrun : (overRelays frame color stride n tile a b).run draft =
      let (relays, laid) := (hop frame color stride n a tile).run draft
      (relays, ((link (lastStop a relays) b color).run laid).2) := rfl
  rw [hrun]
  generalize (hop frame color stride n a tile).run draft = laid at hl hr ⊢
  obtain ⟨relays, laid⟩ := laid
  dsimp only at hl hr ⊢
  have hk := @lays_link laid color (lastStop a relays) b hl.grounded
  have hv : laid.blueprint.vertex (lastStop a relays) ∈
      draft.blueprint.vertex a :: stops relays := by
    rcases lastStop_cases a relays with hs | hs
    · rw [hs, hl.grows.vertex ha]
      exact List.mem_cons_self
    · obtain ⟨id, -, he⟩ := List.mem_map.mp hs
      rw [← he, Blueprint.vertex_input, he]
      exact List.mem_cons_of_mem _ hs
  rw [hl.grows.vertex hb] at hk
  refine ⟨relays, _, rfl, ?_, ?_⟩
  · refine (hl.trans hk fun x _ => ⟨_, hv, by simp⟩).congr fun x => ?_
    simp only [Route.vertices, List.mem_append, List.mem_cons, List.not_mem_nil, or_false]
    rw [List.mem_cons] at hv
    grind
  · intro relay hm
    exact hk.grows.isRelay_of_isRelay (hr relay hm)

/-- Where an entity stands in a draft. -/
def Draft.place (draft : Draft) (terminal : Terminal) : Position :=
  ((positionOf terminal.entity).run draft).1

/-- The ends of a route, the one it starts at first. -/
def orderedEnds (draft : Draft) (first second : Terminal) : Terminal × Terminal :=
  let delta := draft.place second - draft.place first
  if delta.x < 0 ∨ delta.y < 0 then (second, first) else (first, second)

/-- How far a route goes along the direction of its construct. -/
def wayAlong (draft : Draft) (frame : Frame) (source target : Terminal) : Int :=
  (draft.place target - draft.place source).along frame.direction

def strideOf (frame : Frame) (way : Int) : Position :=
  frame.direction.scale (reach frame.depth * way.sign)

theorem run_route :
    (route frame first second color).run draft =
      let source := (orderedEnds draft first second).1
      let target := (orderedEnds draft first second).2
      let way := wayAlong draft frame source target
      let (relays, final) := (overRelays frame color (strideOf frame way)
        ((way.natAbs - 1) / reach frame.depth)
        (draft.place source + strideOf frame way +
          frame.direction.turnRight.scale (frame.depth + 1)) source target).run draft
      ((), { final with routes := ⟨frame, first, second, color, relays⟩ :: final.routes }) := rfl

theorem orderedEnds_cases (draft : Draft) (first second : Terminal) :
    orderedEnds draft first second = (first, second) ∨
      orderedEnds draft first second = (second, first) := by
  unfold orderedEnds
  dsimp only
  split
  · exact .inr rfl
  · exact .inl rfl

/-- A route joins its ends and its relays, draws no other wire and is noted as it was asked for. -/
theorem route_spec (h : draft.Grounded) (hf : frame.Upright)
    (ha : first.entity < draft.blueprint.size) (hb : second.entity < draft.blueprint.size)
    (color : Color) :
    ∃ relays final, (route frame first second color).run draft =
        ((), { final with routes := ⟨frame, first, second, color, relays⟩ :: draft.routes }) ∧
      Lays color (Route.vertices ⟨frame, first, second, color, relays⟩ draft.blueprint) draft final ∧
      ∀ relay ∈ relays, final.blueprint.isRelay relay = true := by
  rw [run_route]
  rcases orderedEnds_cases draft first second with he | he
  · rw [he]
    dsimp only
    obtain ⟨relays, final, hr, hl, hrel⟩ := overRelays_spec h hf ha hb color
      (strideOf frame (wayAlong draft frame first second)) _ _
    rw [hr]
    dsimp only
    rw [hl.routes]
    exact ⟨relays, final, rfl, hl, hrel⟩
  · rw [he]
    dsimp only
    obtain ⟨relays, final, hr, hl, hrel⟩ := overRelays_spec h hf hb ha color
      (strideOf frame (wayAlong draft frame second first)) _ _
    rw [hr]
    dsimp only
    rw [hl.routes]
    refine ⟨relays, final, rfl, hl.congr fun x => ?_, hrel⟩
    simp only [Route.vertices, List.mem_cons]
    exact or_left_comm

end CircuitScript.Layout
