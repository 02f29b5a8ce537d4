import CircuitScript.Proofs.Clearance
/-!
How far the wires of a route reach. Each of them is short along the direction of its construct, and
so is every wire of a layout along one of the axes; across that axis nothing bounds it.
-/
namespace CircuitScript

namespace Blueprint

variable {blueprint after : Blueprint} {near : Position → Position → Prop} {id other : EntityId}
  {wire : Wire}

/-- The wire joins entities that exist, and they stand near each other. -/
def Spans (blueprint : Blueprint) (near : Position → Position → Prop) (wire : Wire) : Prop :=
  ∃ a b, blueprint.entity? wire.a.entity = some a ∧ blueprint.entity? wire.b.entity = some b ∧
    near a.position b.position

theorem Spans.grows (h : blueprint.Spans near wire) (hg : Grows blueprint after) :
    after.Spans near wire := by
  obtain ⟨a, b, ha, hb, hn⟩ := h
  obtain ⟨a', ha', -, hpa⟩ := hg.entity ha
  obtain ⟨b', hb', -, hpb⟩ := hg.entity hb
  refine ⟨a', b', ha', hb', ?_⟩
  rwa [hpa, hpb]

theorem spans_connect {a b : Entity} {color : Color} {fromSide toSide : End}
    (hm : wire ∈ (blueprint.connect id fromSide other toSide color).2.wires)
    (ha : blueprint.entity? id = some a) (hb : blueprint.entity? other = some b)
    (hn : near a.position b.position) (hn' : near b.position a.position) :
    wire ∈ blueprint.wires ∨
      (blueprint.connect id fromSide other toSide color).2.Spans near wire := by
  have hextend := @extends_connect blueprint id color fromSide toSide other
  rcases mem_wires_connect.mp hm with hm | ⟨-, rfl⟩
  · exact .inl hm
  · right
    unfold Wire.between
    split
    · exact ⟨a, b, hextend.entity ha, hextend.entity hb, hn⟩
    · exact ⟨b, a, hextend.entity hb, hextend.entity ha, hn'⟩

end Blueprint

namespace Layout

variable {draft before after : Draft} {frame : Frame} {color : Color} {tile place : Position}
  {first second anchor : Terminal} {I : Draft → Prop} {home stop : Position → Prop}

/-- What makes a property of drafts last along the routes between some homes: relays are put on free
stops, and wires are drawn between tiles that are not too far apart along the frame. -/
structure RouteInvariant (frame : Frame) (home stop : Position → Prop) (I : Draft → Prop) :
    Prop where
  grounded : ∀ {draft}, I draft → draft.Grounded
  sound : ∀ {draft}, I draft → draft.blueprint.Sound
  lane : ∀ {tile} (steps : Int), home tile →
    stop (tile + frame.direction.scale steps + frame.direction.turnRight.scale (frame.depth + 1))
  ahead : ∀ {tile} (steps : Int), stop tile → stop (tile + frame.direction.scale steps)
  opened : ∀ {draft tile}, I draft → stop tile → stop (openTile draft frame tile)
  relay : ∀ {draft tile}, I draft → stop tile → draft.blueprint.find? tile = none →
    I ((relayOn tile none).run draft).2
  link : ∀ {draft : Draft} {a b : Terminal} {p q : Position} (color : Color), I draft →
    StandsOn draft a.entity p → StandsOn draft b.entity q → home p ∨ stop p → home q ∨ stop q →
    ((q - p).along frame.direction).natAbs ≤ reach frame.depth → I ((link a b color).run draft).2
  note : ∀ {draft : Draft} (routes : List Route), I draft → I { draft with routes := routes }

theorem StandsOn.extends {id : EntityId} (h : StandsOn before id tile)
    (he : before.blueprint.Extends after.blueprint) : StandsOn after id tile := by
  obtain ⟨entity, hentity, hp⟩ := h
  exact ⟨entity, he.entity hentity, hp⟩

theorem along_sub (a b direction : Position) :
    (a - b).along direction = a.along direction - b.along direction := by
  simp only [Position.along, Position.sub_x, Position.sub_y, Int.sub_mul]
  omega

theorem along_stride (hf : frame.Upright) (steps : Int) :
    (frame.direction.scale steps).along frame.direction = steps := by
  rw [along_scale, hf, Int.one_mul]

theorem lastStop_cons (relay : EntityId) (relays : List EntityId) :
    lastStop anchor (relay :: relays) = lastStop ⟨relay, .input⟩ relays := by
  unfold lastStop
  rw [List.getLast?_cons]
  cases relays.getLast? <;> rfl

namespace RouteInvariant

theorem relayAt (h : RouteInvariant frame home stop I) (hf : frame.Upright) (hi : I draft)
    (ht : stop tile) :
    I ((relayAt frame tile).run draft).2 ∧
    draft.blueprint.Extends ((Layout.relayAt frame tile).run draft).2.blueprint ∧
    StandsOn ((Layout.relayAt frame tile).run draft).2 ((Layout.relayAt frame tile).run draft).1
      (openTile draft frame tile) := by
  obtain ⟨hstrokes, hstands⟩ := @relayAt_strokes draft frame tile (fun _ => True) (h.grounded hi)
    (h.sound hi) hf fun _ _ => trivial
  refine ⟨?_, strokes_extends hstrokes, hstands⟩
  rw [run_relayAt]
  cases hs : standing? draft (openTile draft frame tile) with
  | some id => exact hi
  | none => exact h.relay hi (h.opened hi ht) (find?_of_standing? hs)

/-- A way over relays goes on by one stride for each of them. -/
theorem hop {steps : Int} {n : Nat} (h : RouteInvariant frame home stop I) (hf : frame.Upright)
    (hr : steps.natAbs ≤ reach frame.depth) (hi : I draft) (ha : StandsOn draft anchor.entity place)
    (hp : home place ∨ stop place) (ht : stop tile)
    (hat : tile.along frame.direction = place.along frame.direction + steps) :
    I ((hop frame color (frame.direction.scale steps) n anchor tile).run draft).2 ∧
    draft.blueprint.Extends ((Layout.hop frame color (frame.direction.scale steps) n anchor
      tile).run draft).2.blueprint ∧
    ∃ last, StandsOn ((Layout.hop frame color (frame.direction.scale steps) n anchor tile).run
        draft).2 (lastStop anchor ((Layout.hop frame color (frame.direction.scale steps) n anchor
          tile).run draft).1).entity last ∧
      (home last ∨ stop last) ∧
      last.along frame.direction = place.along frame.direction + steps * n ∧
      ∀ relay ∈ ((Layout.hop frame color (frame.direction.scale steps) n anchor tile).run draft).1,
        ((Layout.hop frame color (frame.direction.scale steps) n anchor tile).run draft).2.At relay
          stop := by
  induction n generalizing draft anchor tile place with
  | zero => exact ⟨hi, .refl _, place, ha, hp, by omega, fun relay hr => absurd hr List.not_mem_nil⟩
  | succ n ih =>
    rw [hop_succ]
    obtain ⟨hplaced, hextend, hstands⟩ := h.relayAt hf hi ht
    have hstop := h.opened hi ht
    have hopen := @along_openTile draft frame tile
    generalize (Layout.relayAt frame tile).run draft = placed at hplaced hextend hstands ⊢
    generalize openTile draft frame tile = next at hstands hstop hopen
    obtain ⟨relay, placed⟩ := placed
    dsimp only at hplaced hextend hstands ⊢
    -- A relay gives way only across the frame, so it still is one stride from the stop before it.
    have hlinked := @RouteInvariant.link frame home stop I h placed anchor ⟨relay, .input⟩ _ _
      color hplaced (ha.extends hextend) hstands hp (.inr hstop) (by
        rw [along_sub, hopen, hat]
        omega)
    have hextend' : placed.blueprint.Extends
        ((Layout.link anchor ⟨relay, .input⟩ color).run placed).2.blueprint :=
      Blueprint.extends_connect
    have hpos : ((positionOf relay).run
        ((Layout.link anchor ⟨relay, .input⟩ color).run placed).2).1 = next := by
      obtain ⟨entity, he, rfl⟩ := hstands
      exact run_positionOf (hextend'.entity he)
    rw [hpos]
    generalize ((Layout.link anchor ⟨relay, .input⟩ color).run placed).2 = linked
      at hlinked hextend' ⊢
    obtain ⟨hlaid, hmore, last, hlast, hsite, halong, hstops⟩ := @ih linked
      (next + frame.direction.scale steps) next ⟨relay, .input⟩ hlinked
      (hstands.extends hextend') (.inr hstop) (h.ahead steps hstop)
      (by rw [along_add, along_stride hf])
    generalize (Layout.hop frame color (frame.direction.scale steps) n ⟨relay, .input⟩
      (next + frame.direction.scale steps)).run linked = laid at hlaid hmore hlast hstops ⊢
    obtain ⟨relays, laid⟩ := laid
    dsimp only at hlaid hmore hlast hstops ⊢
    refine ⟨hlaid, (hextend.trans hextend').trans hmore, last, ?_, hsite, ?_, ?_⟩
    · rwa [lastStop_cons]
    · rw [halong, hopen, hat, Int.natCast_succ, Int.mul_add]
      omega
    · refine List.forall_mem_cons.mpr ⟨?_, hstops⟩
      obtain ⟨entity, he, hposition⟩ := hstands.extends (hextend'.trans hmore)
      exact ⟨entity, he, hposition ▸ hstop⟩

end RouteInvariant

/-- Over its stops a route comes so near to its end that one more wire is enough. -/
theorem rest_le_reach (way : Int) (depth : Nat) :
    (way - reach depth * way.sign * ((way.natAbs - 1) / reach depth : Nat)).natAbs ≤
      reach depth := by
  have hpos := reach_pos depth
  have hmod := Nat.mod_lt (way.natAbs - 1) hpos
  have hdiv := Nat.div_add_mod (way.natAbs - 1) (reach depth)
  have hcast : (reach depth * way.sign * ((way.natAbs - 1) / reach depth : Nat) : Int) =
      way.sign * (reach depth * ((way.natAbs - 1) / reach depth) : Nat) := by
    rw [Int.natCast_mul]
    grind
  rw [hcast]
  generalize reach depth * ((way.natAbs - 1) / reach depth) = gone at hdiv
  rcases Int.lt_trichotomy way 0 with hw | hw | hw
  · rw [Int.sign_eq_neg_one_of_neg hw]
    omega
  · rw [hw, Int.sign_zero]
    omega
  · rw [Int.sign_eq_one_of_pos hw]
    omega

namespace RouteInvariant

theorem overRelays {source target : Terminal} (h : RouteInvariant frame home stop I)
    (hf : frame.Upright) (hi : I draft) (ha : draft.At source.entity home)
    (hb : draft.At target.entity home) (color : Color) :
    ∃ relays final, (overRelays frame color (strideOf frame (wayAlong draft frame source target))
      (((wayAlong draft frame source target).natAbs - 1) / reach frame.depth)
      (draft.place source + strideOf frame (wayAlong draft frame source target) +
        frame.direction.turnRight.scale (frame.depth + 1)) source target).run draft =
      (relays, final) ∧ I final ∧ ∀ relay ∈ relays, final.At relay stop := by
  have hway : wayAlong draft frame source target =
      (draft.place target).along frame.direction - (draft.place source).along frame.direction :=
    along_sub _ _ _
  obtain ⟨sender, hsender, hfrom⟩ := ha
  obtain ⟨receiver, hreceiver, hto⟩ := hb
  rw [Draft.place, Draft.place, run_positionOf hsender, run_positionOf hreceiver] at hway
  rw [Draft.place, run_positionOf hsender, strideOf]
  generalize wayAlong draft frame source target = way at hway
  have hsteps : (reach frame.depth * way.sign : Int).natAbs ≤ reach frame.depth := by
    rcases Int.sign_trichotomy way with hs | hs | hs <;> rw [hs] <;> omega
  have hrun : ∀ tile, (Layout.overRelays frame color
      (frame.direction.scale (reach frame.depth * way.sign))
      ((way.natAbs - 1) / reach frame.depth) tile source target).run draft =
      let laid := (Layout.hop frame color (frame.direction.scale (reach frame.depth * way.sign))
        ((way.natAbs - 1) / reach frame.depth) source tile).run draft
      (laid.1, ((Layout.link (lastStop source laid.1) target color).run laid.2).2) := fun _ => rfl
  rw [hrun]
  obtain ⟨hlaid, hextend, last, hlast, hsite, halong, hstops⟩ := @RouteInvariant.hop draft frame color
    (sender.position + frame.direction.scale (reach frame.depth * way.sign) +
      frame.direction.turnRight.scale (frame.depth + 1)) sender.position source I home stop
    (reach frame.depth * way.sign) ((way.natAbs - 1) / reach frame.depth) h hf hsteps hi
    ⟨sender, hsender, rfl⟩ (.inl hfrom) (h.lane _ hfrom) (by
      rw [along_add, along_add, along_stride hf, along_scale, along_turnRight]
      omega)
  generalize (Layout.hop frame color (frame.direction.scale (reach frame.depth * way.sign))
    ((way.natAbs - 1) / reach frame.depth) source
    (sender.position + frame.direction.scale (reach frame.depth * way.sign) +
      frame.direction.turnRight.scale (frame.depth + 1))).run draft = laid
    at hlaid hextend hlast hstops ⊢
  refine ⟨laid.1, _, rfl, ?_, fun relay hr => (hstops relay hr).extends Blueprint.extends_connect⟩
  -- The last stop is so far on the way that what is left is no more than a stride.
  refine h.link color hlaid hlast ⟨receiver, hextend.entity hreceiver, rfl⟩ hsite (.inl hto) ?_
  have hrest := rest_le_reach way frame.depth
  rw [along_sub, halong]
  have hsame : receiver.position.along frame.direction - (sender.position.along frame.direction +
      reach frame.depth * way.sign * ((way.natAbs - 1) / reach frame.depth : Nat)) =
      way - reach frame.depth * way.sign * ((way.natAbs - 1) / reach frame.depth : Nat) := by
    omega
  rwa [hsame]

/-- A route between homes keeps the property, and all its relays stand on stops. -/
theorem exists_route (h : RouteInvariant frame home stop I) (hf : frame.Upright) (hi : I draft)
    (ha : draft.At first.entity home) (hb : draft.At second.entity home) (color : Color) :
    ∃ relays final, (route frame first second color).run draft =
        ((), { final with routes := ⟨frame, first, second, color, relays⟩ :: final.routes }) ∧
      I final ∧ ∀ relay ∈ relays, final.At relay stop := by
  rw [run_route]
  rcases orderedEnds_cases draft first second with he | he
  · rw [he]
    obtain ⟨relays, final, hrun, hlaid, hstops⟩ := h.overRelays hf hi ha hb color
    dsimp only
    rw [hrun]
    exact ⟨relays, final, rfl, hlaid, hstops⟩
  · rw [he]
    obtain ⟨relays, final, hrun, hlaid, hstops⟩ := h.overRelays hf hi hb ha color
    dsimp only
    rw [hrun]
    exact ⟨relays, final, rfl, hlaid, hstops⟩

theorem route (h : RouteInvariant frame home stop I) (hf : frame.Upright) (hi : I draft)
    (ha : draft.At first.entity home) (hb : draft.At second.entity home) (color : Color) :
    I ((route frame first second color).run draft).2 := by
  obtain ⟨relays, final, hrun, hlaid, -⟩ := h.exists_route hf hi ha hb color
  rw [hrun]
  exact h.note _ hlaid

end RouteInvariant

theorem reach_le (depth : Nat) : reach depth ≤ 7 := by
  unfold reach
  split <;> decide

/-- Two tiles that are no more than seven apart along one of the axes. -/
def NearOnAxis (p q : Position) : Prop := (q - p).x.natAbs ≤ 7 ∨ (q - p).y.natAbs ≤ 7

theorem NearOnAxis.symm {p q : Position} (h : NearOnAxis p q) : NearOnAxis q p := by
  simp only [NearOnAxis, Position.sub_x, Position.sub_y] at h ⊢
  omega

/-- A direction of one tile is along an axis. -/
theorem axis_of_upright (hf : frame.Upright) :
    (frame.direction.x.natAbs = 1 ∧ frame.direction.y = 0) ∨
      (frame.direction.x = 0 ∧ frame.direction.y.natAbs = 1) := by
  have hsum : frame.direction.x.natAbs * frame.direction.x.natAbs +
      frame.direction.y.natAbs * frame.direction.y.natAbs = 1 := by
    have h := hf
    simp only [Frame.Upright, Position.along, ← Int.natAbs_mul_self] at h
    exact_mod_cast h
  generalize hx : frame.direction.x.natAbs = x at hsum
  generalize hy : frame.direction.y.natAbs = y at hsum
  have hxle : x ≤ x * x := Nat.le_mul_self x
  have hyle : y ≤ y * y := Nat.le_mul_self y
  rcases Nat.eq_zero_or_pos x with hzero | hpos
  · rw [hzero, Nat.zero_mul, Nat.zero_add] at hsum
    exact .inr ⟨Int.natAbs_eq_zero.mp (hx.trans hzero), Nat.eq_one_of_mul_eq_one_left hsum⟩
  · exact .inl ⟨by omega, Int.natAbs_eq_zero.mp (by omega)⟩

theorem nearOnAxis_of_along {p q : Position} (hf : frame.Upright)
    (h : ((q - p).along frame.direction).natAbs ≤ reach frame.depth) : NearOnAxis p q := by
  have hle := Nat.le_trans h (reach_le frame.depth)
  rcases axis_of_upright hf with ⟨hx, hy⟩ | ⟨hx, hy⟩
  · left
    rwa [Position.along, hy, Int.mul_zero, Int.add_zero, Int.natAbs_mul, hx, Nat.mul_one] at hle
  · right
    rwa [Position.along, hx, Int.mul_zero, Int.zero_add, Int.natAbs_mul, hy, Nat.mul_one] at hle

/-- A new relay is a pole. -/
theorem grounded_relayOn (h : draft.Grounded) : ((relayOn tile none).run draft).2.Grounded := by
  have hput := act_grounded (.relay draft tile) h
  refine ⟨hput.indexed, fun pole hp => ?_, hput.requests⟩
  rcases List.mem_append.mp hp with hp | hp
  · exact hput.poles pole hp
  · rw [List.mem_singleton.mp hp]
    exact Blueprint.isRelay_create

theorem extends_relayOn :
    draft.blueprint.Extends ((relayOn tile none).run draft).2.blueprint :=
  Blueprint.extends_push Blueprint.entities_create rfl

/-- Entities are found only where they stand, and wires are short along an axis. -/
structure Draft.Taut (draft : Draft) : Prop where
  grounded : draft.Grounded
  sound : draft.blueprint.Sound
  spans : ∀ wire ∈ draft.blueprint.wires, draft.blueprint.Spans NearOnAxis wire

theorem taut_routeInvariant (hf : frame.Upright) :
    RouteInvariant frame (fun _ => True) (fun _ => True) Draft.Taut where
  grounded := Draft.Taut.grounded
  sound := Draft.Taut.sound
  lane := fun _ _ => trivial
  ahead := fun _ _ => trivial
  opened := fun _ _ => trivial
  relay := fun h _ _ => ⟨grounded_relayOn h.grounded, Blueprint.sound_create h.sound,
    fun wire hm => (h.spans wire hm).grows extends_relayOn.grows⟩
  link := by
    intro draft a b p q color h ha hb _ _ hr
    obtain ⟨sender, hsender, rfl⟩ := ha
    obtain ⟨receiver, hreceiver, rfl⟩ := hb
    have hnear := nearOnAxis_of_along hf hr
    refine ⟨(lays_link h.grounded).grounded, Blueprint.sound_connect h.sound, fun wire hm => ?_⟩
    rcases Blueprint.spans_connect hm hsender hreceiver hnear hnear.symm with hm | hspan
    · exact (h.spans wire hm).grows Blueprint.grows_connect
    · exact hspan
  note := fun _ h => ⟨⟨h.grounded.indexed, h.grounded.poles, h.grounded.requests⟩, h.sound, h.spans⟩

theorem at_of_lt {id : EntityId} (h : id < draft.blueprint.size) : draft.At id fun _ => True := by
  obtain ⟨entity, he⟩ := Blueprint.entity?_eq_some_iff.mpr h
  exact ⟨entity, he, trivial⟩

theorem act_taut (h : Act before after) (ht : before.Taut) : after.Taut := by
  have hgrows := act_grows h ht.grounded
  have hg := act_grounded h ht.grounded
  have hs := act_sound h ht.grounded ht.sound
  -- But for a route, all wires are old ones, and what they join stays where it is.
  have hsame : after.blueprint.wires = before.blueprint.wires → after.Taut := by
    intro hw
    refine ⟨hg, hs, fun wire hm => (ht.spans wire ?_).grows hgrows⟩
    rwa [← hw]
  cases h with
  | relay tile => exact hsame rfl
  | stand frame condition feeds => exact hsame wires_bare
  | route color hf ha hb =>
    exact (taut_routeInvariant hf).route hf ht (at_of_lt ha) (at_of_lt hb) color
  | note hb hr hg' => exact hsame (congrArg Blueprint.wires hb)

theorem taut_empty : Draft.empty.Taut where
  grounded := grounded_empty
  sound := Blueprint.tidy_empty.sound
  spans := fun _ h => absurd h List.not_mem_nil

/-- In every layout, each wire is short along an axis. -/
theorem taut_draft (script : Script) : script.draft.2.Taut :=
  draft_induction taut_empty (fun h _ ht => act_taut h ht) script

end Layout

end CircuitScript
