import CircuitScript.Proofs.Construction
import CircuitScript.Proofs.LayoutActs
/-!
Routes, one stroke at a time. A route puts relays on free tiles, each one stride further than the
one before, and draws wires between entities that exist; nothing that stands is changed.
-/
namespace CircuitScript.Blueprint

variable {blueprint before after later : Blueprint} {id other : EntityId} {entity : Entity}
  {a b : Terminal} {color : Color} {tile : Position} {grid : Grid}

/-- All entities stay as they are, and no wire is taken away. -/
structure Extends (before after : Blueprint) : Prop where
  entity : ∀ {id entity}, before.entity? id = some entity → after.entity? id = some entity
  wire : ∀ {wire}, wire ∈ before.wires → wire ∈ after.wires

theorem Extends.refl (blueprint : Blueprint) : Extends blueprint blueprint := ⟨fun h => h, fun h => h⟩

theorem Extends.trans (h : Extends before after) (h' : Extends after later) :
    Extends before later := ⟨fun he => h'.entity (h.entity he), fun hw => h'.wire (h.wire hw)⟩

theorem Extends.grows (h : Extends before after) : Grows before after :=
  ⟨fun he => ⟨_, h.entity he, rfl, rfl⟩, h.wire⟩

theorem extends_push {new : Entity} (he : after.entities = before.entities.push new)
    (hw : after.wires = before.wires) : Extends before after where
  entity := by
    intro id entity h
    have hi : id < before.entities.size := entity?_eq_some_iff.mp ⟨entity, h⟩
    rw [entity?, he, Array.getElem?_push, if_neg (Nat.ne_of_lt hi)]
    exact h
  wire := by
    intro wire h
    rw [hw]
    exact h

theorem extends_connect {fromSide toSide : End} {toId : EntityId} :
    Extends blueprint (blueprint.connect id fromSide toId toSide color).2 where
  entity := by
    intro other entity h
    rw [entity?, entities_connect.1]
    exact h
  wire := fun h => mem_wires_connect.mpr (.inl h)

/-- An entity is found only on tiles that it covers. -/
def Sound (blueprint : Blueprint) : Prop :=
  ∀ tile id, blueprint.find? tile = some id →
    ∃ entity, blueprint.entity? id = some entity ∧ tile ∈ entity.tiles

theorem tiles_of_relay (h : entity.kind = .relay) : entity.tiles = [entity.position] := by
  simp only [Entity.tiles, h, Kind.footprint, rectangle]
  show [(⟨entity.position.x + 0, entity.position.y + 0⟩ : Position)] = _
  rw [Int.add_zero, Int.add_zero]

/-- A relay that is found on a tile stands there. -/
theorem position_of_find? (hs : Sound blueprint) (hr : blueprint.isRelay id = true)
    (hf : blueprint.find? tile = some id) :
    ∃ entity, blueprint.entity? id = some entity ∧ entity.position = tile := by
  obtain ⟨entity, he, ht⟩ := hs _ _ hf
  have hk : entity.kind = .relay := by simpa [isRelay, he] using hr
  rw [tiles_of_relay hk] at ht
  exact ⟨entity, he, (List.mem_singleton.mp ht).symm⟩

/-- Afterwards an entity is found on its tiles, and elsewhere what was found before. -/
theorem find?_occupy_eq {tiles : List Position} :
    (occupy grid id tiles).1.find? tile = if tile ∈ tiles then some id else grid.find? tile := by
  induction tiles generalizing grid with
  | nil => rfl
  | cons first rest ih =>
    refine (@ih (grid.insert first id)).trans ?_
    rw [Grid.find?_insert]
    by_cases hr : tile ∈ rest
    · simp [hr]
    · by_cases hf : tile = first <;> simp [hr, hf]

/-- An entity that leaves some tiles is found on none of them. -/
theorem find?_release_eq {tiles : List Position} :
    (grid.release id tiles).find? tile =
      if tile ∈ tiles ∧ grid.find? tile = some id then none else grid.find? tile := by
  induction tiles generalizing grid with
  | nil => simp [Grid.release]
  | cons first rest ih =>
    refine (@ih (if grid.find? first = some id then grid.erase first else grid)).trans ?_
    by_cases hfirst : grid.find? first = some id
    · rw [if_pos hfirst, Grid.find?_erase]
      by_cases ht : tile = first
      · simp [ht, hfirst]
      · simp [ht]
    · rw [if_neg hfirst]
      by_cases ht : tile = first
      · subst ht
        simp [hfirst]
      · simp [ht]

theorem sound_create {kind : Kind} (h : Sound blueprint) :
    Sound (blueprint.create kind tile).2.1 := by
  intro place id hf
  have hf' := hf
  rw [find?, create] at hf'
  dsimp only at hf'
  rw [find?_occupy_eq] at hf'
  split at hf'
  · next hm =>
    cases hf'
    exact ⟨_, entity?_create, hm⟩
  · obtain ⟨entity, he, ht⟩ := h _ _ hf'
    exact ⟨entity, (extends_push entities_create rfl).entity he, ht⟩

theorem sound_turn {direction : Nat} (h : Sound blueprint) :
    Sound (blueprint.turn id direction).1 := by
  cases he : blueprint.entity? id with
  | none =>
    simp only [turn, he]
    exact h
  | some entity =>
    simp only [turn, he]
    intro place other hf
    rw [find?, find?_occupy_eq] at hf
    rw [entity?]
    dsimp only
    rw [entity?_setIfInBounds he]
    split at hf
    · next hm =>
      cases hf
      rw [if_pos rfl]
      exact ⟨_, rfl, hm⟩
    · rw [find?_release_eq] at hf
      split at hf
      · cases hf
      · next hn =>
        obtain ⟨old, ho, ht⟩ := h _ _ hf
        have hne : id ≠ other := by
          rintro rfl
          rw [he] at ho
          cases ho
          exact hn ⟨ht, hf⟩
        rw [if_neg hne]
        exact ⟨old, ho, ht⟩

theorem sound_configure {condition : Condition} (h : Sound blueprint) :
    Sound (blueprint.configure id condition) := by
  cases he : blueprint.entity? id with
  | none =>
    simp only [configure, he]
    exact h
  | some entity =>
    simp only [configure, he]
    intro place other hf
    obtain ⟨old, ho, ht⟩ := h _ _ hf
    rw [entity?]
    dsimp only
    rw [entity?_setIfInBounds he]
    split
    · next heq =>
      subst heq
      rw [he] at ho
      cases ho
      exact ⟨_, rfl, ht⟩
    · exact ⟨old, ho, ht⟩

theorem sound_connect {fromSide toSide : End} {toId : EntityId} (h : Sound blueprint) :
    Sound (blueprint.connect id fromSide toId toSide color).2 := by
  intro place other hf
  rw [find?, entities_connect.2] at hf
  obtain ⟨entity, he, ht⟩ := h _ _ hf
  exact ⟨entity, extends_connect.entity he, ht⟩

end CircuitScript.Blueprint

namespace CircuitScript.Layout

variable {draft before after later : Draft} {frame : Frame} {color : Color} {tile : Position}
  {first second : Terminal} {allowed : Position → Prop}

/-- The least that a route does: a relay on a free tile of some kind, a wire between entities that
exist, or a note in the draft. -/
inductive Stroke (allowed : Position → Prop) : Draft → Draft → Prop
  | relay {draft : Draft} {tile : Position} (ht : allowed tile)
      (hf : draft.blueprint.find? tile = none) : Stroke allowed draft ((put .relay tile).run draft).2
  | link {draft : Draft} {a b : Terminal} (color : Color) (ha : a.entity < draft.blueprint.size)
      (hb : b.entity < draft.blueprint.size) : Stroke allowed draft ((link a b color).run draft).2
  | note (draft : Draft) (poles : List EntityId) (routes : List Route) :
      Stroke allowed draft { draft with poles := poles, routes := routes }

abbrev Strokes (allowed : Position → Prop) : Draft → Draft → Prop :=
  Relation.ReflTransGen (Stroke allowed)

theorem Strokes.mono {allowed' : Position → Prop} (h : Strokes allowed before after)
    (hm : ∀ tile, allowed tile → allowed' tile) : Strokes allowed' before after := by
  induction h with
  | refl => exact .refl
  | tail _ hs ih =>
    refine ih.tail ?_
    cases hs with
    | relay ht hf => exact .relay (hm _ ht) hf
    | link color ha hb => exact .link color ha hb
    | note poles routes => exact .note _ poles routes

/-- Whatever each stroke preserves, a route preserves. -/
theorem strokes_preserve {P : Draft → Prop}
    (hP : ∀ {before after}, Stroke allowed before after → P before → P after)
    (h : Strokes allowed before after) (hb : P before) : P after := by
  induction h with
  | refl => exact hb
  | tail _ hs ih => exact hP hs ih

theorem stroke_extends (h : Stroke allowed before after) :
    before.blueprint.Extends after.blueprint := by
  cases h with
  | relay ht hf => exact Blueprint.extends_push Blueprint.entities_create rfl
  | link color ha hb => exact Blueprint.extends_connect
  | note poles routes => exact .refl _

theorem strokes_extends (h : Strokes allowed before after) :
    before.blueprint.Extends after.blueprint :=
  @strokes_preserve before after allowed (fun draft => before.blueprint.Extends draft.blueprint)
    (fun hs hb => hb.trans (stroke_extends hs)) h (.refl _)

theorem stroke_sound (h : Stroke allowed before after) (hs : before.blueprint.Sound) :
    after.blueprint.Sound := by
  cases h with
  | relay ht hf => exact Blueprint.sound_create hs
  | link color ha hb => exact Blueprint.sound_connect hs
  | note poles routes => exact hs

theorem stroke_coherent (h : Stroke allowed before after) (hc : before.blueprint.Coherent) :
    after.blueprint.Coherent := by
  cases h with
  | relay ht hf => exact Blueprint.coherent_create hc _ _
  | link color ha hb => exact Blueprint.coherent_connect hc ha hb _ _ _
  | note poles routes => exact hc

theorem along_turnRight (direction : Position) : direction.turnRight.along direction = 0 := by
  simp only [Position.along, Position.turnRight]
  rw [Int.neg_mul, Int.mul_comm direction.y]
  omega

theorem along_add (a b direction : Position) :
    (a + b).along direction = a.along direction + b.along direction := by
  simp only [Position.along, Position.add_x, Position.add_y, Int.add_mul]
  omega

theorem along_scale (a direction : Position) (factor : Int) :
    (a.scale factor).along direction = a.along direction * factor := by
  simp only [Position.along, Position.scale, Int.add_mul]
  rw [Int.mul_right_comm a.x, Int.mul_right_comm a.y]

/-- Going outward is going neither forth nor back. -/
theorem along_firstOpen {blueprint : Blueprint} {poles : List EntityId}
    {outward direction : Position} (h : outward.along direction = 0) (n : Nat) :
    (firstOpen blueprint poles outward n tile).along direction = tile.along direction := by
  induction n generalizing tile with
  | zero => rfl
  | succ n ih =>
    unfold firstOpen
    split
    · rw [ih, along_add, h, Int.add_zero]
    · rfl

theorem along_openTile :
    (openTile draft frame tile).along frame.direction = tile.along frame.direction :=
  along_firstOpen (along_turnRight _) _

/-- The entity stands on a tile. -/
def StandsOn (draft : Draft) (id : EntityId) (tile : Position) : Prop :=
  ∃ entity, draft.blueprint.entity? id = some entity ∧ entity.position = tile

theorem run_positionOf {id : EntityId} {entity : Entity}
    (h : draft.blueprint.entity? id = some entity) :
    ((positionOf id).run draft).1 = entity.position := by
  simp only [positionOf, StateT.run_bind, StateT.run_get, pure_bind, h]
  rfl

theorem standsOn_of_standing? (hg : draft.Grounded) (hs : draft.blueprint.Sound) {id : EntityId}
    (hb : blocked draft.blueprint draft.poles tile = false) (h : standing? draft tile = some id) :
    StandsOn draft id tile := by
  have hr := isRelay_of_standing? hg hb h
  unfold standing? at h
  cases hp : poleAt? draft.blueprint draft.poles tile with
  | some pole =>
    rw [hp] at h
    cases h
    have hf := List.find?_some hp
    cases he : draft.blueprint.entity? id with
    | none => simp [he] at hf
    | some entity =>
      refine ⟨entity, he, ?_⟩
      simpa [he] using hf
  | none =>
    rw [hp] at h
    exact Blueprint.position_of_find? hs hr h

theorem find?_of_standing? (h : standing? draft tile = none) :
    draft.blueprint.find? tile = none := by
  unfold standing? at h
  cases hp : poleAt? draft.blueprint draft.poles tile with
  | some pole => simp [hp] at h
  | none => simpa [hp] using h

/-- A relay is looked for along the tile of a stop, and only put down where nothing is found. -/
theorem relayAt_strokes (hg : draft.Grounded) (hs : draft.blueprint.Sound) (hf : frame.Upright)
    (ht : ∀ place, place.along frame.direction = tile.along frame.direction → allowed place) :
    Strokes allowed draft ((relayAt frame tile).run draft).2 ∧
    StandsOn ((relayAt frame tile).run draft).2 ((relayAt frame tile).run draft).1
      (openTile draft frame tile) := by
  have hb : blocked draft.blueprint draft.poles (openTile draft frame tile) = false :=
    not_blocked_firstOpen (turnRight_ne hf)
  cases h : standing? draft (openTile draft frame tile) with
  | some id =>
    rw [run_relayAt, h]
    exact ⟨.refl, standsOn_of_standing? hg hs hb h⟩
  | none =>
    rw [run_relayAt, h]
    have hfree := find?_of_standing? h
    have hput : Stroke allowed draft ((put .relay (openTile draft frame tile)).run draft).2 :=
      .relay (ht _ along_openTile) hfree
    refine ⟨.tail (.single hput) (.note _ (draft.poles ++ [draft.blueprint.size]) draft.routes), ?_⟩
    exact ⟨_, Blueprint.entity?_create, rfl⟩

/-- Between the two drafts a terminal was wired to a relay, which stands on a tile. -/
structure Hops (allowed : Position → Prop) (stop : Position) (relay : EntityId)
    (before after : Draft) : Prop where
  strokes : Strokes allowed before after
  grounded : after.Grounded
  sound : after.blueprint.Sound
  isRelay : after.blueprint.isRelay relay = true
  stands : StandsOn after relay stop

/-- A way over relays goes to the one that is found from its first tile on, and from there over the
others. -/
theorem exists_hops {n : Nat} {stride : Position} {anchor : Terminal} (hg : draft.Grounded)
    (hs : draft.blueprint.Sound) (hf : frame.Upright) (ha : anchor.entity < draft.blueprint.size)
    (ht : ∀ place, place.along frame.direction = tile.along frame.direction → allowed place) :
    ∃ relay linked, Hops allowed (openTile draft frame tile) relay draft linked ∧
      (hop frame color stride (n + 1) anchor tile).run draft =
        let laid := (hop frame color stride n ⟨relay, .input⟩
          (openTile draft frame tile + stride)).run linked
        (relay :: laid.1, laid.2) := by
  rw [hop_succ]
  obtain ⟨hp, hr⟩ := relayAt_spec hg hf tile color
  obtain ⟨hstrokes, hstands⟩ := relayAt_strokes hg hs hf ht
  generalize (relayAt frame tile).run draft = placed at hp hr hstrokes hstands ⊢
  obtain ⟨relay, placed⟩ := placed
  dsimp only at hp hr hstrokes hstands ⊢
  have hlink : Stroke allowed placed ((link anchor ⟨relay, .input⟩ color).run placed).2 :=
    .link color (hp.grows.lt ha) (Blueprint.lt_of_isRelay hr)
  have hextend := stroke_extends hlink
  obtain ⟨entity, he, hposition⟩ := hstands
  refine ⟨relay, _, ⟨hstrokes.tail hlink, ?_, ?_, ?_, ?_⟩, ?_⟩
  · exact (@lays_link placed color anchor ⟨relay, .input⟩ hp.grounded).grounded
  · exact stroke_sound hlink (strokes_preserve stroke_sound hstrokes hs)
  · exact hextend.grows.isRelay_of_isRelay hr
  · exact ⟨entity, hextend.entity he, hposition⟩
  · rw [run_positionOf (hextend.entity he), hposition]
    rfl

/-- Each relay on the way stands one stride further than the one before. -/
theorem hop_strokes {stride : Position} {n : Nat} {anchor : Terminal} (hg : draft.Grounded)
    (hs : draft.blueprint.Sound) (hf : frame.Upright) (ha : anchor.entity < draft.blueprint.size)
    (ht : ∀ i < n, ∀ place, place.along frame.direction =
      tile.along frame.direction + stride.along frame.direction * i → allowed place) :
    Strokes allowed draft ((hop frame color stride n anchor tile).run draft).2 := by
  induction n generalizing draft anchor tile with
  | zero => exact .refl
  | succ n ih =>
    obtain ⟨relay, linked, hhops, hrun⟩ := @exists_hops draft frame color tile allowed n stride
      anchor hg hs hf ha fun place hplace => ht 0 (Nat.succ_pos n) place (by simpa using hplace)
    rw [hrun]
    refine hhops.strokes.trans (ih hhops.grounded hhops.sound
      (Blueprint.lt_of_isRelay hhops.isRelay) fun i hi place hplace => ?_)
    refine ht (i + 1) (Nat.succ_lt_succ hi) place ?_
    rw [hplace, along_add, along_openTile, Int.natCast_succ, Int.mul_add]
    omega

/-- The tiles that lie strictly between two entities along the direction of a construct. -/
def Between (draft : Draft) (frame : Frame) (first second : Terminal) (tile : Position) : Prop :=
  min ((draft.place first).along frame.direction) ((draft.place second).along frame.direction) <
      tile.along frame.direction ∧
    tile.along frame.direction <
      max ((draft.place first).along frame.direction) ((draft.place second).along frame.direction)

theorem reach_pos (depth : Nat) : 0 < reach depth := by
  unfold reach
  split <;> decide

/-- The stops of a route lie strictly between its ends. -/
theorem stop_between {start way along : Int} {depth i : Nat}
    (hi : i < (way.natAbs - 1) / reach depth)
    (h : along = start + reach depth * way.sign + reach depth * way.sign * i) :
    min start (start + way) < along ∧ along < max start (start + way) := by
  have hr := reach_pos depth
  have hmul : reach depth * (i + 1) ≤ way.natAbs - 1 := by
    rw [Nat.mul_comm]
    exact (Nat.le_div_iff_mul_le hr).mp hi
  have hsum : along = start + way.sign * (reach depth * (i + 1) : Nat) := by
    rw [h, Int.natCast_mul, Int.natCast_succ]
    grind
  have hpos : 0 < reach depth * (i + 1) := Nat.mul_pos hr (Nat.succ_pos i)
  generalize reach depth * (i + 1) = stop at hmul hsum hpos
  rcases Int.lt_trichotomy way 0 with hw | hw | hw
  · rw [Int.sign_eq_neg_one_of_neg hw] at hsum
    omega
  · omega
  · rw [Int.sign_eq_one_of_pos hw] at hsum
    omega

theorem overRelays_strokes {a b : Terminal} {stride : Position} {n : Nat} (hg : draft.Grounded)
    (hs : draft.blueprint.Sound) (hf : frame.Upright) (ha : a.entity < draft.blueprint.size)
    (hb : b.entity < draft.blueprint.size)
    (ht : ∀ i < n, ∀ place, place.along frame.direction =
      tile.along frame.direction + stride.along frame.direction * i → allowed place) :
    Strokes allowed draft ((overRelays frame color stride n tile a b).run draft).2 := by
  have hrun : ((overRelays frame color stride n tile a b).run draft).2 =
      let laid := (hop frame color stride n a tile).run draft
      ((link (lastStop a laid.1) b color).run laid.2).2 := rfl
  rw [hrun]
  obtain ⟨hl, hr⟩ := @hop_spec draft frame color tile stride n a hg hf ha
  have hstrokes := @hop_strokes draft frame color tile allowed stride n a hg hs hf ha ht
  generalize (hop frame color stride n a tile).run draft = laid at hl hr hstrokes ⊢
  obtain ⟨relays, laid⟩ := laid
  dsimp only at hl hr hstrokes ⊢
  refine hstrokes.tail (.link color ?_ (hl.grows.lt hb))
  rcases lastStop_cases a relays with he | he
  · rw [he]
    exact hl.grows.lt ha
  · obtain ⟨id, hid, he⟩ := List.mem_map.mp he
    rw [← he]
    exact Blueprint.lt_of_isRelay (hr id hid)

/-- A route, wherever its relays are. -/
theorem route_strokes_anywhere (hg : draft.Grounded) (hs : draft.blueprint.Sound)
    (hf : frame.Upright) (ha : first.entity < draft.blueprint.size)
    (hb : second.entity < draft.blueprint.size) (color : Color) :
    Strokes (fun _ => True) draft ((route frame first second color).run draft).2 := by
  rw [run_route]
  rcases orderedEnds_cases draft first second with he | he
  · rw [he]
    exact (overRelays_strokes hg hs hf ha hb fun _ _ _ _ => trivial).tail (.note _ _ _)
  · rw [he]
    exact (overRelays_strokes hg hs hf hb ha fun _ _ _ _ => trivial).tail (.note _ _ _)

/-- A way over relays leads from one end to the other, and its relays lie strictly between. -/
theorem way_strokes {source target : Terminal} (hg : draft.Grounded)
    (hs : draft.blueprint.Sound) (hu : frame.Upright) (ha : source.entity < draft.blueprint.size)
    (hb : target.entity < draft.blueprint.size) (color : Color) :
    Strokes (Between draft frame source target) draft
      ((overRelays frame color (strideOf frame (wayAlong draft frame source target))
        (((wayAlong draft frame source target).natAbs - 1) / reach frame.depth)
        (draft.place source + strideOf frame (wayAlong draft frame source target) +
          frame.direction.turnRight.scale (frame.depth + 1)) source target).run draft).2 := by
  refine overRelays_strokes hg hs hu ha hb fun i hi place hplace => ?_
  have hend : (draft.place target).along frame.direction =
      (draft.place source).along frame.direction + wayAlong draft frame source target := by
    simp only [wayAlong, Position.along, Position.sub_x, Position.sub_y, Int.sub_mul]
    omega
  unfold Between
  rw [hend]
  refine stop_between hi (hplace.trans ?_)
  rw [along_add, along_add, along_scale, along_turnRight, strideOf, along_scale, hu,
    Int.one_mul]
  omega

/-- A route puts its relays strictly between its ends. -/
theorem route_strokes (hg : draft.Grounded) (hs : draft.blueprint.Sound) (hu : frame.Upright)
    (ha : first.entity < draft.blueprint.size) (hb : second.entity < draft.blueprint.size)
    (color : Color) :
    Strokes (Between draft frame first second) draft
      ((route frame first second color).run draft).2 := by
  rw [run_route]
  rcases orderedEnds_cases draft first second with he | he
  · rw [he]
    exact (way_strokes hg hs hu ha hb color).tail (.note _ _ _)
  · rw [he]
    refine Relation.ReflTransGen.tail (Strokes.mono (way_strokes hg hs hu hb ha color) ?_)
      (.note _ _ _)
    intro tile ht
    unfold Between at ht ⊢
    rwa [Int.min_comm, Int.max_comm]

end CircuitScript.Layout
