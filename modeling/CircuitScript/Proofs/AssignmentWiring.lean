import CircuitScript.Proofs.WireReach
/-!
The networks of an assignment. What the combinators of an assignment read comes over the deeper
lanes and what they put out leaves over the first one, so no red wire leads from one to the other;
and the bus of a series carries the results of all its steps but the last.
-/
namespace CircuitScript

namespace Blueprint

variable {blueprint before after : Blueprint} {color : Color} {a b terminal : Terminal}
  {head : EntityId} {entity : Entity}

/-- Something is read at the terminal: it is an input of a combinator, the head of the row, or a
relay on a lane behind the first one. -/
def Upstream (blueprint : Blueprint) (head : EntityId) (terminal : Terminal) : Prop :=
  ∃ entity, blueprint.entity? terminal.entity = some entity ∧
    if entity.kind = .relay then entity.position.y < -2 ∨ terminal.entity = head
    else terminal.side = .input

theorem upstream_iff (h : blueprint.entity? terminal.entity = some entity) :
    blueprint.Upstream head terminal ↔
      if entity.kind = .relay then entity.position.y < -2 ∨ terminal.entity = head
      else terminal.side = .input := by
  simp [Upstream, h]

theorem Extends.upstream_iff (h : Extends before after) (ht : terminal.entity < before.size) :
    after.Upstream head terminal ↔ before.Upstream head terminal := by
  obtain ⟨entity, he⟩ := entity?_eq_some_iff.mpr ht
  rw [Blueprint.upstream_iff he, Blueprint.upstream_iff (h.entity he)]

/-- What both ends of every wire of a colour share, the whole network shares. -/
theorem Joined.iff {P : Terminal → Prop} (h : blueprint.Joined color a b)
    (hw : ∀ {a b}, blueprint.Wired color a b → (P a ↔ P b)) : P a ↔ P b := by
  induction h with
  | rel a b hab => exact hw hab
  | refl a => rfl
  | symm a b _ ih => exact ih.symm
  | trans a b c _ _ ih ih' => exact ih.trans ih'

/-- A combinator has both its ends, and it reads at one of them. -/
theorem upstream_of_holds {id : EntityId} {side : End} {condition : Condition}
    (h : blueprint.Holds id condition) :
    blueprint.vertex ⟨id, side⟩ = ⟨id, side⟩ ∧
      (blueprint.Upstream head ⟨id, side⟩ ↔ side = .input) := by
  obtain ⟨entity, he, hk, -⟩ := h
  have hne : entity.kind ≠ .relay := by
    rw [hk]
    cases condition <;> exact Kind.noConfusion
  constructor
  · simp [vertex, terminal, isRelay, he, hne]
  · rw [upstream_iff he, if_neg hne]

end Blueprint

namespace Layout

variable {draft before after later : Draft} {frame : Frame} {color : Color} {room : Nat}
  {bus bus' ids ids' carried : List EntityId} {head : EntityId} {first second terminal : Terminal}
  {conditions conditions' : List Condition} {condition : Condition}

/-- The relays of a route stand on the lane of its frame. -/
theorem lane_routeInvariant {old : List Wire} {row : Int} {lanes : Nat}
    (hf : frame.Lies row lanes (room + 1)) :
    RouteInvariant frame (·.y = row) (·.y = row - (frame.depth + 1)) (Level old row lanes) := by
  have hroom := hf.room
  have honLane : ∀ {tile : Position}, tile.y = row - (frame.depth + 1) → OnLane row lanes tile := by
    intro tile ht
    rw [OnLane, ht]
    omega
  have hlevel := @level_routeInvariant frame old row lanes room hf
  refine ⟨hlevel.grounded, hlevel.sound, ?_, ?_, ?_, ?_, ?_, hlevel.note⟩
  · intro tile steps ht
    simp only [Position.add_y, Position.scale, Position.turnRight, hf.isRow.1, ht]
    omega
  · intro tile steps ht
    simp only [Position.add_y, Position.scale, hf.isRow.1, Int.zero_mul, Int.add_zero]
    exact ht
  · intro draft tile h ht
    rwa [h.openTile_eq (honLane ht)]
  · exact fun h ht hfree => hlevel.relay h (honLane ht) hfree
  · exact fun color h ha hb hp hq hr =>
      hlevel.link color h ha hb (hp.imp_right honLane) (hq.imp_right honLane) hr

/-- A row with its head. Red wires lead from what is read to what is read, and from what is put out
to what is put out; green ones take from the combinators on the bus only. -/
structure Sorted (head : EntityId) (bus : List EntityId) (draft : Draft) : Prop where
  level : Level [] 0 5 draft
  relay : draft.blueprint.isRelay head = true
  row : draft.At head (·.y = 0)
  red : ∀ {a b}, draft.blueprint.Wired .red a b →
    (draft.blueprint.Upstream head a ↔ draft.blueprint.Upstream head b)
  green : ∀ {a b}, draft.blueprint.Wired .green a b → ∀ terminal ∈ [a, b],
    terminal.side = .output → terminal.entity ∈ bus

namespace Sorted

theorem mono (h : Sorted head bus draft) (hb : bus ⊆ bus') : Sorted head bus' draft :=
  ⟨h.level, h.relay, h.row, h.red, fun hw terminal hm hs => hb (h.green hw terminal hm hs)⟩

theorem lt {a b : Terminal} (h : Sorted head bus draft) (hw : draft.blueprint.Wired color a b) :
    a.entity < draft.blueprint.size ∧ b.entity < draft.blueprint.size := by
  obtain ⟨first, second, hfirst, hsecond, -⟩ := (h.level.spans _ hw).resolve_left List.not_mem_nil
  exact ⟨Blueprint.entity?_eq_some_iff.mp ⟨_, hfirst⟩,
    Blueprint.entity?_eq_some_iff.mp ⟨_, hsecond⟩⟩

/-- Entities that are not wired yet change nothing. -/
theorem push (h : Sorted head bus before) (he : before.blueprint.Extends after.blueprint)
    (hw : after.blueprint.wires = before.blueprint.wires) (hl : Level [] 0 5 after) :
    Sorted head bus after where
  level := hl
  relay := he.grows.isRelay_of_isRelay h.relay
  row := h.row.extends he
  red := by
    intro a b hab
    rw [Blueprint.Wired, hw] at hab
    obtain ⟨ha, hb⟩ := h.lt hab
    rw [he.upstream_iff ha, he.upstream_iff hb]
    exact h.red hab
  green := by
    intro a b hab
    rw [Blueprint.Wired, hw] at hab
    exact h.green hab

/-- What is not in the blueprint does not matter. -/
theorem same (h : Sorted head bus before) (hb : after.blueprint = before.blueprint)
    (hg : after.Grounded) : Sorted head bus after :=
  h.push (hb ▸ .refl _) (congrArg Blueprint.wires hb) (h.level.same hb hg)

theorem reset (h : Sorted head bus draft) :
    Sorted head bus { draft with grown := 0, poles := [] } :=
  h.same rfl ⟨h.level.grounded.indexed, by simp, h.level.grounded.requests⟩

theorem announce {node : Node} (h : Sorted head bus draft) :
    Sorted head bus ((announce frame node).run draft).2 :=
  h.same rfl ⟨h.level.grounded.indexed, h.level.grounded.poles, h.level.grounded.requests⟩

/-- An output that is not on the bus is alone on its green network. -/
theorem not_joined_green (h : Sorted head bus draft) {id : EntityId} (hid : id ∉ bus)
    (hne : terminal ≠ ⟨id, .output⟩) :
    ¬ draft.blueprint.Joined .green ⟨id, .output⟩ terminal := by
  intro hj
  have hoff : ∀ {a b}, draft.blueprint.Wired .green a b →
      ∀ other ∈ [a, b], other ≠ ⟨id, .output⟩ := by
    rintro a b hab other hm rfl
    exact hid (h.green hab _ hm rfl)
  have hsame := hj.iff (P := (· = ⟨id, .output⟩)) fun hab =>
    iff_of_false (hoff hab _ (by simp)) (hoff hab _ (by simp))
  exact hne (hsame.mp rfl)

end Sorted

/-- A route of a colour may end at a terminal. -/
def Suits (frame : Frame) (head : EntityId) (bus : List EntityId) (blueprint : Blueprint)
    (color : Color) (terminal : Terminal) : Prop :=
  (color = .red → (blueprint.Upstream head terminal ↔ 2 ≤ frame.depth)) ∧
    (color = .green → terminal.side = .output → terminal.entity ∈ bus)

theorem Suits.extends (h : Suits frame head bus before.blueprint color terminal)
    (he : before.blueprint.Extends after.blueprint) (ht : terminal.entity < before.blueprint.size) :
    Suits frame head bus after.blueprint color terminal :=
  ⟨fun hc => (he.upstream_iff ht).trans (h.1 hc), h.2⟩

theorem suits_input {id : EntityId} (hd : 2 ≤ frame.depth)
    (h : draft.blueprint.Upstream head ⟨id, .input⟩) :
    Suits frame head bus draft.blueprint color (draft.blueprint.vertex ⟨id, .input⟩) := by
  rw [Blueprint.vertex_input]
  exact ⟨fun _ => iff_of_true h hd, fun _ hs => End.noConfusion hs⟩

theorem suits_relay {relay : EntityId} (hd : 1 ≤ frame.depth) (hhead : draft.At head (·.y = 0))
    (hr : draft.blueprint.isRelay relay = true)
    (hat : draft.At relay (·.y = 0 - ((frame.depth : Int) + 1))) :
    Suits frame head bus draft.blueprint color ⟨relay, .input⟩ := by
  obtain ⟨entity, he, hy⟩ := hat
  have hk : entity.kind = .relay := by simpa [Blueprint.isRelay, he] using hr
  have hne : relay ≠ head := by
    rintro rfl
    obtain ⟨other, ho, hzero⟩ := hhead
    cases he.symm.trans ho
    omega
  refine ⟨fun _ => ?_, fun _ hs => End.noConfusion hs⟩
  rw [Blueprint.upstream_iff he, if_pos hk, or_iff_left hne]
  omega

theorem Sorted.vertex_head (h : Sorted head bus draft) (side : End) :
    draft.blueprint.vertex ⟨head, side⟩ = ⟨head, .input⟩ := by
  simp [Blueprint.vertex, Blueprint.terminal, h.relay]

theorem Sorted.suits_head (h : Sorted head bus draft) (hd : 2 ≤ frame.depth) (side : End) :
    Suits frame head bus' draft.blueprint color (draft.blueprint.vertex ⟨head, side⟩) := by
  obtain ⟨entity, he, -⟩ := h.row
  have hk : entity.kind = .relay := by simpa [Blueprint.isRelay, he] using h.relay
  rw [h.vertex_head]
  refine ⟨fun _ => iff_of_true ?_ hd, fun _ hs => End.noConfusion hs⟩
  rw [Blueprint.upstream_iff he, if_pos hk]
  exact .inr rfl

theorem Level.extends_route {old : List Wire} {row : Int} {lanes : Nat}
    (h : Level old row lanes draft) (hf : frame.Upright) (ha : first.entity < draft.blueprint.size)
    (hb : second.entity < draft.blueprint.size) (color : Color) :
    draft.blueprint.Extends ((route frame first second color).run draft).2.blueprint :=
  strokes_extends (route_strokes_anywhere h.grounded h.sound hf ha hb color)

/-- All that a route is wired to suits it, if its ends do. -/
theorem route_suits (hf : frame.Lies 0 5 (room + 1)) (hd : 1 ≤ frame.depth)
    (hl : Level [] 0 5 draft) (hhead : draft.At head (·.y = 0))
    (ha : draft.At first.entity (·.y = 0)) (hb : draft.At second.entity (·.y = 0))
    (hfirst : Suits frame head bus draft.blueprint color (draft.blueprint.vertex first))
    (hsecond : Suits frame head bus draft.blueprint color (draft.blueprint.vertex second))
    {wire : Wire} (hw : wire ∈ ((route frame first second color).run draft).2.blueprint.wires) :
    wire ∈ draft.blueprint.wires ∨ wire.color = color ∧ ∀ terminal ∈ [wire.a, wire.b],
      Suits frame head bus ((route frame first second color).run draft).2.blueprint color
        terminal := by
  obtain ⟨relays, final, hrun, hlevel, hstops⟩ :=
    (lane_routeInvariant hf).exists_route hf.upright hl ha hb color
  obtain ⟨relays', final', hrun', hlays, hrelay⟩ :=
    route_spec hl.grounded hf.upright ha.lt hb.lt color
  have hextend := hl.extends_route hf.upright ha.lt hb.lt color
  have hsame := hrun.symm.trans hrun'
  rw [hrun] at hw hextend ⊢
  have hblueprint : final'.blueprint = final.blueprint := congrArg (·.2.blueprint) hsame.symm
  have hrelays : relays' = relays := by
    have hnoted := congrArg (·.2.routes.head?.map Route.relays) hsame.symm
    exact Option.some.inj hnoted
  subst hrelays
  have hends : ∀ terminal ∈ Route.vertices ⟨frame, first, second, color, relays'⟩ draft.blueprint,
      Suits frame head bus final.blueprint color terminal := by
    intro terminal hm
    simp only [Route.vertices, List.mem_cons] at hm
    rcases hm with rfl | rfl | hm
    · exact hfirst.extends hextend ha.lt
    · exact hsecond.extends hextend hb.lt
    · obtain ⟨relay, hmem, rfl⟩ := List.mem_map.mp hm
      refine suits_relay hd (hhead.extends hextend) ?_ (hstops relay hmem)
      rw [← hblueprint]
      exact hrelay relay hmem
  dsimp only at hw ⊢
  rw [← hblueprint] at hw
  rcases hlays.added wire hw with hold | ⟨ha, hb, hc⟩
  · exact .inl hold
  · refine .inr ⟨hc, fun terminal hm => ?_⟩
    simp only [List.mem_cons, List.not_mem_nil, or_false] at hm
    rcases hm with rfl | rfl
    · exact hends _ ha
    · exact hends _ hb

/-- A route between terminals that suit it keeps the order. -/
theorem sorted_route (hf : frame.Lies 0 5 (room + 1)) (hd : 1 ≤ frame.depth)
    (h : Sorted head bus draft) (ha : draft.At first.entity (·.y = 0))
    (hb : draft.At second.entity (·.y = 0))
    (hfirst : Suits frame head bus draft.blueprint color (draft.blueprint.vertex first))
    (hsecond : Suits frame head bus draft.blueprint color (draft.blueprint.vertex second)) :
    Sorted head bus ((route frame first second color).run draft).2 := by
  have hwires := @route_suits draft frame color room bus head first second hf hd h.level h.row ha hb
    hfirst hsecond
  have hextend := h.level.extends_route hf.upright ha.lt hb.lt color
  refine ⟨(level_routeInvariant hf).route hf.upright h.level ha hb color,
    hextend.grows.isRelay_of_isRelay h.relay, h.row.extends hextend, fun {a b} hab => ?_,
    fun {a b} hab => ?_⟩
  · rcases hwires hab with hold | ⟨rfl, hsuits⟩
    · obtain ⟨ha, hb⟩ := h.lt hold
      rw [hextend.upstream_iff ha, hextend.upstream_iff hb]
      exact h.red hold
    · exact ((hsuits a (by simp)).1 rfl).trans ((hsuits b (by simp)).1 rfl).symm
  · rcases hwires hab with hold | ⟨rfl, hsuits⟩
    · exact h.green hold
    · exact fun terminal hm => (hsuits terminal hm).2 rfl

theorem sorted_routeAll {others : List EntityId} {side : End} (hf : frame.Lies 0 5 (room + 1))
    (hd : 1 ≤ frame.depth) (h : Sorted head bus draft) (ha : draft.At first.entity (·.y = 0))
    (hb : ∀ other ∈ others, draft.At other (·.y = 0))
    (hfirst : Suits frame head bus draft.blueprint color (draft.blueprint.vertex first))
    (hothers : ∀ other ∈ others,
      Suits frame head bus draft.blueprint color (draft.blueprint.vertex ⟨other, side⟩)) :
    Sorted head bus ((routeAll frame first others side color).run draft).2 := by
  induction others generalizing draft with
  | nil => exact h
  | cons other rest ih =>
    rw [List.forall_mem_cons] at hb hothers
    have hextend := @Level.extends_route draft frame first ⟨other, side⟩ _ _ _ h.level hf.upright
      ha.lt hb.1.lt color
    have hsorted := sorted_route hf hd h ha hb.1 hfirst hothers.1
    have hrun : (routeAll frame first (other :: rest) side color).run draft =
        (routeAll frame first rest side color).run
          ((route frame first ⟨other, side⟩ color).run draft).2 := rfl
    rw [hrun]
    generalize ((route frame first ⟨other, side⟩ color).run draft).2 = routed at hextend hsorted ⊢
    refine ih hsorted (ha.extends hextend) (fun next hn => (hb.2 next hn).extends hextend) ?_
      fun next hn => ?_
    · rw [hextend.grows.vertex ha.lt]
      exact hfirst.extends hextend ha.lt
    · rw [hextend.grows.vertex (hb.2 next hn).lt]
      exact (hothers.2 next hn).extends hextend (hb.2 next hn).lt

/-- Routes put down no combinators. -/
theorem routeAll_adds {others : List EntityId} {side : End} (hf : frame.Upright)
    (hg : draft.Grounded) (hs : draft.blueprint.Sound) (ha : first.entity < draft.blueprint.size)
    (hb : draft.Knows others) :
    (∃ n, Leaves draft ((routeAll frame first others side color).run draft).2 (.relays n)) ∧
      ∀ blueprint,
        ((routeAll frame first others side color).run draft).2.blueprint.Extends blueprint →
        ∀ other ∈ others, blueprint.Linked color first ⟨other, side⟩ := by
  have hplan := @Plan.routeAll .anywhere frame color (first.entity :: others) [] first others side
    (by simp) (by simp)
  obtain ⟨inventory, hleaves, hlinked⟩ := (hplan.yields hf).run hg hs (by
    rw [List.append_nil]
    exact List.forall_mem_cons.mpr ⟨ha, hb⟩)
  obtain ⟨⟨n, rfl⟩, -⟩ := hlinked _ (.refl _)
  exact ⟨⟨n, hleaves⟩, fun blueprint he => (hlinked blueprint he).2⟩

/-- From one draft to the other, combinators with some payloads were placed in the row, and all of
them read the head. -/
structure Laid (head : EntityId) (bus : List EntityId) (conditions : List Condition)
    (ids : List EntityId) (before after : Draft) : Prop where
  sorted : Sorted head bus after
  extend : before.blueprint.Extends after.blueprint
  combinators : after.blueprint.combinators = before.blueprint.combinators ++ ids
  row : ∀ id ∈ ids, after.At id (·.y = 0)
  works : ∀ blueprint, after.blueprint.Extends blueprint →
    List.Forall₂ blueprint.Works (ids.map fun id => ⟨id, [.entity head]⟩) conditions

/-- Combinators in the row. -/
def Standing (draft : Draft) (ids : List EntityId) : Prop :=
  ∀ id ∈ ids, draft.At id (·.y = 0) ∧ ∃ condition, draft.blueprint.Holds id condition

theorem Standing.extends (h : Standing before ids)
    (he : before.blueprint.Extends after.blueprint) : Standing after ids := by
  intro id hid
  obtain ⟨hat, condition, entity, hentity, hholds⟩ := h id hid
  exact ⟨hat.extends he, condition, entity, he.entity hentity, hholds⟩

theorem standing_nil : Standing draft [] := fun _ hid => absurd hid List.not_mem_nil

namespace Laid

theorem refl (h : Sorted head bus draft) : Laid head bus [] [] draft draft :=
  ⟨h, .refl _, (List.append_nil _).symm, by simp, fun _ _ => .nil⟩

theorem trans (h : Laid head bus conditions ids before after)
    (h' : Laid head bus' conditions' ids' after later) :
    Laid head bus' (conditions ++ conditions') (ids ++ ids') before later where
  sorted := h'.sorted
  extend := h.extend.trans h'.extend
  combinators := by
    rw [h'.combinators, h.combinators, List.append_assoc]
  row := by
    intro id hid
    rcases List.mem_append.mp hid with hid | hid
    · exact (h.row id hid).extends h'.extend
    · exact h'.row id hid
  works := by
    intro blueprint he
    rw [List.map_append]
    exact List.rel_append (h.works blueprint (h'.extend.trans he)) (h'.works blueprint he)

/-- Then something happens without a new combinator. -/
theorem quiet (h : Laid head bus conditions ids before after) (hs : Sorted head bus' later)
    (he : after.blueprint.Extends later.blueprint)
    (hc : later.blueprint.combinators = after.blueprint.combinators) :
    Laid head bus' conditions ids before later := by
  have hquiet : Laid head bus' [] [] after later :=
    ⟨hs, he, by rw [hc, List.append_nil], by simp, fun _ _ => .nil⟩
  simpa using h.trans hquiet

theorem same {before' after' : Draft} (h : Laid head bus conditions ids before after)
    (hb : before'.blueprint = before.blueprint) (ha : after'.blueprint = after.blueprint)
    (hg : after'.Grounded) : Laid head bus conditions ids before' after' := by
  refine ⟨h.sorted.same ha hg, ?_, ?_, fun id hid => ?_, ?_⟩
  · exact hb ▸ ha ▸ h.extend
  · exact hb ▸ ha ▸ h.combinators
  · exact (h.row id hid).extends (ha ▸ .refl _)
  · exact ha ▸ h.works

theorem holds (h : Laid head bus conditions ids before after) :
    List.Forall₂ after.blueprint.Holds ids conditions :=
  (List.forall₂_map_left_iff.mp (h.works _ (.refl _))).imp fun _ _ hw => hw.holds

theorem standing (h : Laid head bus conditions ids before after) : Standing after ids := by
  intro id hid
  have hm : (⟨id, [.entity head]⟩ : Placement) ∈ ids.map fun id => ⟨id, [.entity head]⟩ :=
    List.mem_map_of_mem hid
  obtain ⟨condition, -, hw⟩ := exists_works (h.works _ (.refl _)) hm
  exact ⟨h.row id hid, condition, hw.holds⟩

end Laid

theorem sorted_place (hf : frame.Lies 0 5 (room + 1)) (hd : 2 ≤ frame.depth)
    (h : Sorted head bus draft) :
    Sorted head bus ((place frame condition [.entity head]).run draft).2 := by
  obtain ⟨hlevel, hextend, hat⟩ := (@levels_bare frame [] 0 5 (room + 1) condition [.entity head] []
    hf).run h.level (by simp)
  have hholds : ((bare frame condition [.entity head]).run draft).2.blueprint.Holds
      draft.blueprint.size condition := ⟨_, entity?_bare, rfl, rfl⟩
  have hid := (@bare_new draft frame condition [.entity head]).1
  have hmade := h.push hextend wires_bare hlevel
  rw [run_place]
  generalize (bare frame condition [.entity head]).run draft = made at *
  obtain ⟨id, made⟩ := made
  dsimp only at *
  subst hid
  have hcolor : readColor made head = .red := if_pos hmade.relay
  have hread : (([Feed.entity head].forM (readFeed frame draft.blueprint.size)).run made).2 =
      ((readFeed frame draft.blueprint.size (.entity head)).run made).2 := rfl
  rw [hread, run_readFeed_entity, hcolor]
  have hinput := @suits_input made frame .red bus head _ hd
    ((Blueprint.upstream_of_holds hholds).2.mpr rfl)
  have hrouted := sorted_route hf (Nat.le_of_succ_le hd) hmade (hat _ List.mem_cons_self) hmade.row
    hinput (hmade.suits_head hd .output)
  exact hrouted.same rfl ⟨hrouted.level.grounded.indexed, hrouted.level.grounded.poles,
    hrouted.level.grounded.requests⟩

/-- A combinator that reads the head. -/
theorem place_laid (hf : frame.Lies 0 5 (room + 1)) (hd : 2 ≤ frame.depth)
    (h : Sorted head bus draft) :
    Laid head bus [condition] [((place frame condition [.entity head]).run draft).1] draft
      ((place frame condition [.entity head]).run draft).2 := by
  have hsub : Feed.entities [.entity head] ⊆ [head] := by simp [Feed.entities]
  obtain ⟨-, hextend, hrow⟩ := (@levels_place frame [] 0 5 room condition [.entity head] [head] hf
    hsub).run h.level (by simpa using h.row)
  obtain ⟨hid, ⟨n, hleaves⟩, hworks⟩ := @place_leaves draft frame condition [.entity head] hf.upright
    h.level.grounded h.level.sound fun id hid => by
      rw [List.mem_singleton.mp (hsub hid)]
      exact h.row.lt
  rw [hid] at hrow ⊢
  exact ⟨sorted_place hf hd h, hextend, hleaves.combinators, hrow,
    fun blueprint he => .cons (hworks blueprint he) .nil⟩

theorem run_lowerBody_step {flow : Flow} {step : Step} {rest : List Node} :
    (lowerBody frame flow carried (.step step :: rest)).run draft =
      let placed := (place frame step.condition flow.feeds).run draft
      let color := if ((readsRelay frame.feeds).run placed.2).1 then Color.green else .red
      let routed := ((routeAll frame ⟨placed.1, .input⟩ carried .output color).run placed.2).2
      let more := (lowerBody frame (flow.behind [placed.1]) (carried ++ flow.carried [placed.1])
        rest).run routed
      ([placed.1] :: more.1, more.2) := by
  rw [lowerBody]
  rfl

/-- A step reads the head, and over the bus what is carried over; what comes behind it begins with
the draft that it leaves. -/
theorem step_laid {flow : Flow} {step : Step} (rest : List Node) (hf : frame.Lies 0 5 (room + 1))
    (hd : 2 ≤ frame.depth) (hfeeds : frame.feeds = [.entity head])
    (hflow : flow.feeds = frame.feeds) (h : Sorted head bus draft)
    (hc : Standing draft carried) (hb : carried ⊆ bus) :
    ∃ id after, Laid head bus [step.condition] [id] draft after ∧
      (lowerBody frame flow carried (.step step :: rest)).run draft =
        let more :=
          (lowerBody frame (flow.behind [id]) (carried ++ flow.carried [id]) rest).run after
        ([id] :: more.1, more.2) := by
  rw [run_lowerBody_step, hflow, hfeeds]
  have hplaced := @place_laid draft frame room bus head step.condition hf hd h
  dsimp only
  generalize (place frame step.condition [.entity head]).run draft = placed at hplaced ⊢
  obtain ⟨id, placed⟩ := placed
  dsimp only at hplaced ⊢
  refine ⟨id, _, ?_, rfl⟩
  have hcolor : ((readsRelay [.entity head]).run placed).1 = true :=
    List.any_eq_true.mpr ⟨head, List.mem_cons_self, hplaced.sorted.relay⟩
  rw [hcolor, if_pos rfl]
  have hrow := hplaced.row id List.mem_cons_self
  have hstanding := hc.extends hplaced.extend
  obtain ⟨⟨n, hadds⟩, -⟩ := @routeAll_adds placed frame .green ⟨id, .input⟩ carried .output hf.upright
    hplaced.sorted.level.grounded hplaced.sorted.level.sound hrow.lt
    fun other ho => (hstanding other ho).1.lt
  refine hplaced.quiet ?_ hadds.extend (hadds.combinators.trans (List.append_nil _))
  refine sorted_routeAll hf (Nat.le_of_succ_le hd) hplaced.sorted hrow
    (fun other ho => (hstanding other ho).1) ?_ fun other ho => ?_
  · rw [Blueprint.vertex_input]
    exact ⟨fun hc => Color.noConfusion hc, fun _ hs => End.noConfusion hs⟩
  · obtain ⟨-, condition, hholds⟩ := hstanding other ho
    rw [(@Blueprint.upstream_of_holds _ head _ .output _ hholds).1]
    exact ⟨fun hc => Color.noConfusion hc, fun _ _ => hb ho⟩

/-- The steps of a series. The result of the last one is not on the bus. -/
theorem series_laid (hf : frame.Lies 0 5 (room + 1)) (hd : 2 ≤ frame.depth)
    (hfeeds : frame.feeds = [.entity head]) (steps : List Step) (h : Sorted head carried draft)
    (hc : Standing draft carried) :
    ∃ ids final, (lowerBody frame (.series frame.feeds) carried (steps.map .step)).run draft =
        (ids.map ([·]), final) ∧
      Laid head (carried ++ ids.dropLast) (steps.map Step.condition) ids draft final := by
  induction steps generalizing draft carried with
  | nil => exact ⟨[], draft, rfl, .refl (by simpa using h)⟩
  | cons step rest ih =>
    obtain ⟨id, routed, hstep, hrun⟩ := @step_laid draft frame room carried carried head
      (.series frame.feeds) step (rest.map .step) hf hd hfeeds rfl h hc (List.Subset.refl _)
    rw [List.map_cons, hrun]
    cases rest with
    | nil => exact ⟨[id], routed, rfl, by simpa using hstep⟩
    | cons next rest =>
      obtain ⟨ids, final, hmore, hrest⟩ := @ih routed (carried ++ [id])
        (hstep.sorted.mono (List.subset_append_left _ _))
        fun other ho => (List.mem_append.mp ho).elim (hc.extends hstep.extend other)
          (hstep.standing other)
      dsimp only [Flow.behind, Flow.carried]
      rw [hmore]
      refine ⟨id :: ids, final, rfl, ?_⟩
      have hne : ids ≠ [] := by
        rintro rfl
        simpa using hrest.holds.length_eq
      rw [List.dropLast_cons_of_ne_nil hne]
      simpa using hstep.trans hrest

/-- Steps that read the head and nothing else. -/
theorem shared_laid (hf : frame.Lies 0 5 (room + 1)) (hd : 2 ≤ frame.depth)
    (hfeeds : frame.feeds = [.entity head]) (steps : List Step) (h : Sorted head bus draft) :
    ∃ ids final, (lowerBody frame (.shared frame.feeds) [] (steps.map .step)).run draft =
        (ids.map ([·]), final) ∧
      Laid head bus (steps.map Step.condition) ids draft final := by
  induction steps generalizing draft with
  | nil => exact ⟨[], draft, rfl, .refl h⟩
  | cons step rest ih =>
    obtain ⟨id, routed, hstep, hrun⟩ := @step_laid draft frame room bus [] head
      (.shared frame.feeds) step (rest.map .step) hf hd hfeeds rfl h standing_nil
      (List.nil_subset _)
    obtain ⟨ids, final, hmore, hrest⟩ := ih hstep.sorted
    rw [List.map_cons, hrun]
    dsimp only [Flow.behind, Flow.carried]
    rw [List.append_nil, hmore]
    exact ⟨id :: ids, final, rfl, hstep.trans hrest⟩

/-- A member in a frame of its own. -/
theorem descend_laid (frame : Frame) (feeds : List Feed) (build : Frame → Build (List EntityId))
    {result : List EntityId} {final : Draft} (h : Sorted head bus' draft)
    (hrun : (build (frame.inner (frame.spot draft.grown) feeds false false)).run
      { draft with grown := 0, poles := [] } = (result, final))
    (hlaid : Laid head bus conditions ids { draft with grown := 0, poles := [] } final) :
    ∃ after, (descend frame feeds false false build).run draft = (result, after) ∧
      Laid head bus conditions ids draft after := by
  rw [run_descend, run_here]
  dsimp only
  rw [hrun]
  refine ⟨_, rfl, hlaid.same rfl rfl ⟨hlaid.sorted.level.grounded.indexed, fun pole hp => ?_,
    hlaid.sorted.level.grounded.requests⟩⟩
  exact hlaid.extend.grows.isRelay_of_isRelay (h.level.grounded.poles pole hp)

theorem run_lowerBody_member {flow : Flow} {node : Node} {rest : List Node}
    (h : ∀ step, node ≠ .step step) :
    (lowerBody frame flow carried (node :: rest)).run draft =
      let laid := (descend frame (flow.feeds ++ carried.map .entity) false false
        fun inner => lower inner node).run draft
      let more :=
        (lowerBody frame (flow.behind laid.1) (carried ++ flow.carried laid.1) rest).run laid.2
      (laid.1 :: more.1, more.2) := by
  rw [lowerBody_cons h]
  rfl

theorem run_series {scope : Scope} {body : List Node} :
    (lower frame (.series scope body)).run draft =
      let laid := (lowerBody frame (.series frame.feeds) [] body).run
        ((announce frame (.series scope body)).run draft).2
      (laid.1.getLast?.getD [], laid.2) := by
  rw [lower]
  rfl

theorem run_parallel {scope : Scope} {body : List Node} :
    (lower frame (.parallel scope body)).run draft =
      let laid := (lowerBody frame (.shared frame.feeds) [] body).run
        ((announce frame (.parallel scope body)).run draft).2
      (laid.1.flatten, laid.2) := by
  rw [lower]
  rfl

/-- A series as a member of its row: its end is its last step. -/
theorem series_member_laid {scope : Scope} {steps : List Step} (hf : frame.Lies 0 5 (room + 2))
    (hd : 2 ≤ frame.depth) (h : Sorted head [] draft) :
    ∃ ids after, (descend frame [.entity head] false false
        fun inner => lower inner (.series scope (steps.map .step))).run draft =
        (ids.getLast?.toList, after) ∧
      Laid head ids.dropLast (steps.map Step.condition) ids draft after := by
  obtain ⟨ids, final, hrun, hlaid⟩ := @series_laid _
    (frame.inner (frame.spot draft.grown) [.entity head] false false) room [] head
    (hf.inner (hf.spot_y draft.grown)) (Nat.le_succ_of_le hd) rfl steps
    (@Sorted.announce _ (frame.inner (frame.spot draft.grown) [.entity head] false false) _ _
      (.series scope (steps.map .step)) h.reset) standing_nil
  obtain ⟨after, hmember, hdone⟩ := descend_laid frame [.entity head]
    (fun inner => lower inner (.series scope (steps.map .step))) h
    (by
      rw [run_series, hrun])
    (hlaid.same rfl rfl hlaid.sorted.level.grounded)
  refine ⟨ids, after, ?_, by simpa using hdone⟩
  rw [hmember]
  cases ids using List.reverseRecOn <;> simp

/-- A step, a series and some more steps, all side by side. -/
theorem members_laid {scope : Scope} {first : Step} {steps others : List Step}
    (hf : frame.Lies 0 5 (room + 2)) (hd : 2 ≤ frame.depth) (hfeeds : frame.feeds = [.entity head])
    (h : Sorted head [] draft) :
    ∃ pass series rest final, (lowerBody frame (.shared frame.feeds) []
        (.step first :: .series scope (steps.map .step) :: others.map .step)).run draft =
        ([pass] :: series.getLast?.toList :: rest.map ([·]), final) ∧
      series.length = steps.length ∧ Laid head series.dropLast
        (first.condition :: (steps.map Step.condition ++ others.map Step.condition))
        (pass :: (series ++ rest)) draft final := by
  have hnear : frame.Lies 0 5 (room + 1) := hf.mono (Nat.le_succ _)
  obtain ⟨pass, routed, hstep, hrun⟩ := @step_laid draft frame room [] [] head (.shared frame.feeds)
    first (.series scope (steps.map .step) :: others.map .step) hnear hd hfeeds rfl h standing_nil
    (List.nil_subset _)
  obtain ⟨series, after, hmember, hseries⟩ :=
    @series_member_laid routed frame room head scope steps hf hd hstep.sorted
  obtain ⟨rest, final, hmore, hothers⟩ :=
    @shared_laid after frame room series.dropLast head hnear hd hfeeds others hseries.sorted
  have hlength : series.length = steps.length := by
    simpa using hseries.holds.length_eq
  refine ⟨pass, series, rest, final, ?_, hlength,
    by simpa using (hstep.trans hseries).trans hothers⟩
  rw [hrun, run_lowerBody_member fun step hs => Node.noConfusion hs]
  dsimp only [Flow.feeds, Flow.behind, Flow.carried]
  simp only [List.append_nil, List.map_nil, hfeeds] at hmember hmore ⊢
  rw [hmember, hmore]

theorem sorted_head {tile : Position} (ht : tile.y = 0) (hg : draft.Grounded)
    (he : draft.blueprint = .empty) :
    Sorted ((put .relay tile).run draft).1 [] ((put .relay tile).run draft).2 := by
  have hlevel : Level [] 0 5 draft := by
    refine ⟨hg, ?_, ?_, ?_⟩ <;> rw [he]
    · exact sound_empty
    · exact fun _ hm => absurd hm List.not_mem_nil
    · intro id entity hentity
      cases hentity
  obtain ⟨hput, -, hrow⟩ := (@levels_relay [] 0 5 tile [] ht).run hlevel (by simp)
  have hwires : ((put .relay tile).run draft).2.blueprint.wires = [] :=
    congrArg Blueprint.wires he
  refine ⟨hput, ?_, hrow _ List.mem_cons_self, fun hw => ?_, fun hw => ?_⟩
  · exact Blueprint.isRelay_create
  all_goals
    rw [Blueprint.Wired, hwires] at hw
    exact absurd hw List.not_mem_nil

/-- The tail behind a row, which takes what some of its combinators put out. -/
theorem tail_laid {ends : List EntityId} {tile : Position} (hf : frame.Lies 0 5 (room + 1))
    (hd : frame.depth = 1) (ht : tile.y = 0) (h : Laid head bus conditions ids before after)
    (hends : ends ⊆ ids) :
    let tailed := (put .relay tile).run after
    let final := ((routeAll frame ⟨tailed.1, .input⟩ ends .output .red).run tailed.2).2
    Laid head bus conditions ids before final ∧ final.blueprint.isRelay tailed.1 = true ∧
      ∀ id ∈ ends, final.blueprint.Linked .red ⟨tailed.1, .input⟩ ⟨id, .output⟩ := by
  obtain ⟨hlevel, hextend, hrow⟩ := (@levels_relay [] 0 5 tile [] ht).run h.sorted.level (by simp)
  have hadds := @relay_adds after tile
  have hnew : ((put .relay tile).run after).1 = after.blueprint.size := rfl
  have hrelay := @Blueprint.isRelay_create after.blueprint tile
  have hsorted := h.sorted.push hextend rfl hlevel
  have hlaid := h.quiet hsorted hextend (hadds.combinators.trans (List.append_nil _))
  have hrow := hrow _ List.mem_cons_self
  rw [← hnew, show (after.blueprint.create .relay tile).2.1 =
    ((put .relay tile).run after).2.blueprint from rfl] at hrelay
  generalize (put .relay tile).run after = tailed at *
  obtain ⟨tail, tailed⟩ := tailed
  dsimp only at *
  have hstanding := hlaid.standing
  obtain ⟨⟨n, hrouted⟩, hlinked⟩ := @routeAll_adds tailed frame .red ⟨tail, .input⟩ ends .output
    hf.upright hlevel.grounded hlevel.sound hrow.lt fun id hid => (hstanding id (hends hid)).1.lt
  refine ⟨hlaid.quiet ?_ hrouted.extend (hrouted.combinators.trans (List.append_nil _)),
    hrouted.extend.grows.isRelay_of_isRelay hrelay, hlinked _ (.refl _)⟩
  have hshallow : ¬ 2 ≤ frame.depth := by omega
  refine sorted_routeAll hf hd.ge hsorted hrow (fun id hid => (hstanding id (hends hid)).1) ?_
    fun id hid => ?_
  · rw [Blueprint.vertex_input]
    refine ⟨fun _ => iff_of_false ?_ hshallow, fun _ hs => End.noConfusion hs⟩
    obtain ⟨entity, he, hy⟩ := hrow
    have hne : tail ≠ head := hnew ▸ Nat.ne_of_gt h.sorted.row.lt
    have hk : entity.kind = .relay := by simpa [Blueprint.isRelay, he] using hrelay
    rw [Blueprint.upstream_iff he, if_pos hk, or_iff_left hne]
    omega
  · obtain ⟨-, condition, hholds⟩ := hstanding id (hends hid)
    obtain ⟨hvertex, hup⟩ := @Blueprint.upstream_of_holds _ head _ .output _ hholds
    rw [hvertex]
    exact ⟨fun _ => iff_of_false (fun hu => End.noConfusion (hup.mp hu)) hshallow,
      fun hc => Color.noConfusion hc⟩

/-- A chain of one construct, made of a step, a series and some more steps. -/
def soleRow (outer middle inner : Scope) (first : Step) (steps others : List Step) : Node :=
  .chain outer
    [.parallel middle (.step first :: .series inner (steps.map .step) :: others.map .step)]

/-- The only member of a row. -/
theorem member_laid {middle inner : Scope} {first : Step} {steps others : List Step}
    (hf : frame.Lies 0 5 (room + 3)) (hd : frame.depth = 1) (h : Sorted head [] draft) :
    ∃ pass series rest final, (lowerBody frame (.chained [.entity head]) [] [.parallel middle
        (.step first :: .series inner (steps.map .step) :: others.map .step)]).run draft =
        ([pass :: (series.getLast?.toList ++ rest)], final) ∧
      series.length = steps.length ∧ Laid head series.dropLast
        (first.condition :: (steps.map Step.condition ++ others.map Step.condition))
        (pass :: (series ++ rest)) draft final := by
  obtain ⟨pass, series, rest, final, hrun, hlength, hlaid⟩ := @members_laid _
    (frame.inner (frame.spot draft.grown) [.entity head] false false) room head inner first steps
    others (hf.inner (hf.spot_y draft.grown)) (Nat.succ_le_succ hd.ge) rfl
    (@Sorted.announce _ (frame.inner (frame.spot draft.grown) [.entity head] false false) _ _
      (.parallel middle (.step first :: .series inner (steps.map .step) :: others.map .step))
      h.reset)
  obtain ⟨after, hmember, hdone⟩ := descend_laid frame [.entity head]
    (fun inner' => lower inner' (.parallel middle
      (.step first :: .series inner (steps.map .step) :: others.map .step))) h
    (by
      rw [run_parallel, hrun])
    (hlaid.same rfl rfl hlaid.sorted.level.grounded)
  refine ⟨pass, series, rest, after, ?_, hlength, hdone⟩
  rw [run_lowerBody_member fun step hs => Node.noConfusion hs]
  dsimp only [Flow.feeds]
  simp only [List.append_nil, List.map_nil]
  have hends : ([pass] :: series.getLast?.toList :: rest.map ([·])).flatten =
      pass :: (series.getLast?.toList ++ rest) := by
    simp [← List.flatMap_def]
  rw [hmember, hends, lowerBody]
  rfl

theorem soleRow_laid {outer middle inner : Scope} {first : Step} {steps others : List Step}
    (hf : frame.Lies 0 5 (room + 3)) (hd : frame.depth = 1) (hg : draft.Grounded)
    (he : draft.blueprint = .empty) :
    ∃ pass series rest tail headed final,
      (lower frame (soleRow outer middle inner first steps others)).run draft = ([tail], final) ∧
      headed.blueprint.combinators = [] ∧ series.length = steps.length ∧
      Laid 0 series.dropLast
        (first.condition :: (steps.map Step.condition ++ others.map Step.condition))
        (pass :: (series ++ rest)) headed final ∧
      final.blueprint.isRelay tail = true ∧
      ∀ id ∈ pass :: (series.getLast?.toList ++ rest),
        final.blueprint.Linked .red ⟨tail, .input⟩ ⟨id, .output⟩ := by
  have hnear : frame.Lies 0 5 (room + 1) := hf.mono (by omega)
  have hstart : (frame.start - frame.direction).y = 0 := by
    simp [Position.sub_y, hf.start, hf.isRow.1]
  rw [soleRow, run_chain]
  dsimp only
  generalize hannounced : ((announce frame (.chain outer _)).run draft).2 = announced
  have hgrounded : announced.Grounded := hannounced ▸ ⟨hg.indexed, hg.poles, hg.requests⟩
  have hempty : announced.blueprint = .empty := hannounced ▸ he
  have hhead := sorted_head hstart hgrounded hempty
  have hzero : ((put .relay (frame.start - frame.direction)).run announced).1 = 0 :=
    congrArg Blueprint.size hempty
  have hnone := (@relay_adds announced (frame.start - frame.direction)).combinators
  rw [hempty] at hnone
  generalize (put .relay (frame.start - frame.direction)).run announced = headed
    at hhead hzero hnone ⊢
  obtain ⟨pass, series, rest, laid, hrun, hlength, hlaid⟩ :=
    @member_laid headed.2 frame room headed.1 middle inner first steps others hf hd hhead
  rw [hrun]
  obtain ⟨hfinal, htail, hlinked⟩ := tail_laid hnear hd (hf.spot_y laid.grown) hlaid (by
    show pass :: (series.getLast?.toList ++ rest) ⊆ pass :: (series ++ rest)
    refine List.cons_subset_cons _ (List.append_subset.mpr ⟨?_, List.subset_append_right _ _⟩)
    intro id hid
    exact List.mem_append_left _ (List.mem_of_getLast? (Option.mem_toList.mp hid)))
  exact ⟨pass, series, rest, _, headed.2, _, rfl, hnone, hlength, hzero ▸ hfinal, htail, hlinked⟩

/-- Some combinators read the head of a row, and none of them reads what the last one puts out,
which goes to the tail. -/
structure FeedsForward (blueprint : Blueprint) (readers : List EntityId)
    (head last tail : EntityId) : Prop where
  apart : ∀ color, ∀ reader ∈ readers,
    ¬ blueprint.Joined color ⟨last, .output⟩ ⟨reader, .input⟩
  leaves : blueprint.Joined .red ⟨last, .output⟩ ⟨tail, .input⟩
  reads : ∀ reader ∈ readers, blueprint.Joined .red ⟨head, .input⟩ ⟨reader, .input⟩

theorem Laid.feedsForward {last tail : EntityId} (h : Laid head bus conditions ids before after)
    (hl : last ∈ ids) (hb : last ∉ bus)
    (ht : after.blueprint.Linked .red ⟨tail, .input⟩ ⟨last, .output⟩) :
    FeedsForward after.blueprint ids head last tail := by
  have hends : ∀ id ∈ ids, ∀ side, after.blueprint.vertex ⟨id, side⟩ = ⟨id, side⟩ ∧
      (after.blueprint.Upstream head ⟨id, side⟩ ↔ side = .input) := by
    intro id hid side
    obtain ⟨-, condition, hholds⟩ := h.standing id hid
    exact Blueprint.upstream_of_holds hholds
  refine ⟨fun color reader hr hj => ?_, ?_, fun reader hr => ?_⟩
  · cases color with
    | red =>
      have hup := (hj.iff h.sorted.red).mpr ((hends reader hr .input).2.mpr rfl)
      exact End.noConfusion ((hends last hl .output).2.mp hup)
    | green =>
      exact h.sorted.not_joined_green hb (fun he => End.noConfusion (congrArg Terminal.side he)) hj
  · rw [Blueprint.Linked, Blueprint.vertex_input, (hends last hl .output).1] at ht
    exact ht.symm
  · have hm : (⟨reader, [.entity head]⟩ : Placement) ∈ ids.map fun id => ⟨id, [.entity head]⟩ :=
      List.mem_map_of_mem hr
    obtain ⟨condition, -, hw⟩ := exists_works (h.works _ (.refl _)) hm
    have hfed := hw.feeds head (by simp [Feed.entities])
    rw [Blueprint.Feeds, Blueprint.feedColor, if_pos h.sorted.relay, Blueprint.Linked,
      h.sorted.vertex_head, Blueprint.vertex_input] at hfed
    exact hfed

end Layout

end CircuitScript
