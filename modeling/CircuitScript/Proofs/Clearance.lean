import CircuitScript.Proofs.LayoutEffects
import CircuitScript.Proofs.Occupancy
/-!
Where constructs stand. A row grows to the right and a condition grows downwards; what lies ahead of
either and not beside it is free, and stays free until the construct gets there.
-/
namespace CircuitScript.Layout

variable {α β : Type} {draft before after later : Draft} {frame : Frame} {color : Color}
  {condition : Condition} {feeds : List Feed} {grown grown' : Int} {id : EntityId}
  {allowed : Position → Prop}

namespace Frame

/-- A row grows to the right, and its combinators are upright. -/
def IsRow (frame : Frame) : Prop := frame.direction = ⟨1, 0⟩ ∧ frame.rotation = 0

/-- A condition grows downwards, and its combinators lie on their side. -/
def IsColumn (frame : Frame) : Prop := frame.direction = ⟨0, 1⟩ ∧ frame.rotation = 2

def Aligned (frame : Frame) : Prop := frame.IsRow ∨ frame.IsColumn

/-- How far a tile lies in the direction of the frame. -/
def ahead (frame : Frame) (tile : Position) : Int := tile.along frame.direction

/-- How far a tile lies on the side that the frame keeps free. -/
def aside (frame : Frame) (tile : Position) : Int :=
  tile.along ⟨frame.direction.y, frame.direction.x⟩

/-- The tile that a construct has grown to. -/
def spot (frame : Frame) (grown : Int) : Position := frame.start + frame.direction.scale grown

theorem IsRow.ahead (h : frame.IsRow) (tile : Position) : frame.ahead tile = tile.x := by
  simp [Frame.ahead, Position.along, h.1]

theorem IsRow.aside (h : frame.IsRow) (tile : Position) : frame.aside tile = tile.y := by
  simp [Frame.aside, Position.along, h.1]

theorem IsRow.spot (h : frame.IsRow) (grown : Int) :
    frame.spot grown = ⟨frame.start.x + grown, frame.start.y⟩ := by
  simp only [Frame.spot, h.1, Position.scale]
  show (⟨frame.start.x + 1 * grown, frame.start.y + 0 * grown⟩ : Position) = _
  rw [Int.one_mul, Int.zero_mul, Int.add_zero]

theorem IsColumn.ahead (h : frame.IsColumn) (tile : Position) : frame.ahead tile = tile.y := by
  simp [Frame.ahead, Position.along, h.1]

theorem IsColumn.aside (h : frame.IsColumn) (tile : Position) : frame.aside tile = tile.x := by
  simp [Frame.aside, Position.along, h.1]

theorem IsColumn.spot (h : frame.IsColumn) (grown : Int) :
    frame.spot grown = ⟨frame.start.x, frame.start.y + grown⟩ := by
  simp only [Frame.spot, h.1, Position.scale]
  show (⟨frame.start.x + 0 * grown, frame.start.y + 1 * grown⟩ : Position) = _
  rw [Int.one_mul, Int.zero_mul, Int.add_zero]

theorem Aligned.upright (h : frame.Aligned) : frame.Upright := by
  rcases h with h | h
  · rw [Frame.Upright, h.1]
    rfl
  · rw [Frame.Upright, h.1]
    rfl

theorem Aligned.ahead_spot (h : frame.Aligned) (grown : Int) :
    frame.ahead (frame.spot grown) = frame.ahead frame.start + grown := by
  rcases h with h | h
  · rw [h.ahead, h.ahead, h.spot]
  · rw [h.ahead, h.ahead, h.spot]

theorem Aligned.aside_spot (h : frame.Aligned) (grown : Int) :
    frame.aside (frame.spot grown) = frame.aside frame.start := by
  rcases h with h | h
  · rw [h.aside, h.aside, h.spot]
  · rw [h.aside, h.aside, h.spot]

/-- A construct never grows to the left. -/
theorem Aligned.spot_x_le (h : frame.Aligned) (hg : grown ≤ grown') :
    (frame.spot grown).x ≤ (frame.spot grown').x := by
  rcases h with h | h
  · rw [h.spot, h.spot]
    dsimp only
    omega
  · exact Int.le_of_eq (by rw [h.spot, h.spot])

end Frame

/-- The entity stands somewhere with a property. -/
def Draft.At (draft : Draft) (id : EntityId) (P : Position → Prop) : Prop :=
  ∃ entity, draft.blueprint.entity? id = some entity ∧ P entity.position

theorem Draft.At.imp {P Q : Position → Prop} (h : draft.At id P) (hi : ∀ tile, P tile → Q tile) :
    draft.At id Q := by
  obtain ⟨entity, he, hp⟩ := h
  exact ⟨entity, he, hi _ hp⟩

theorem Draft.At.extends {P : Position → Prop} (h : before.At id P)
    (he : before.blueprint.Extends after.blueprint) : after.At id P := by
  obtain ⟨entity, hentity, hp⟩ := h
  exact ⟨entity, he.entity hentity, hp⟩

theorem Draft.At.lt {P : Position → Prop} (h : draft.At id P) : id < draft.blueprint.size := by
  obtain ⟨entity, he, -⟩ := h
  exact Blueprint.entity?_eq_some_iff.mp ⟨entity, he⟩

theorem Draft.At.place {P : Position → Prop} {side : End} (h : draft.At id P) :
    P (draft.place ⟨id, side⟩) := by
  obtain ⟨entity, he, hp⟩ := h
  rwa [Draft.place, run_positionOf he]

/-- A construct that has grown so far has the tiles ahead of it to itself, and all that was put down
is found where it stands. What reads an open gate is not further right. -/
structure Fits (frame : Frame) (grown : Int) (draft : Draft) : Prop where
  tidy : draft.blueprint.Tidy
  quiet : ∀ event ∈ draft.events, ∀ tile a b, event ≠ .overlap tile a b
  clear : ∀ tile id, draft.blueprint.find? tile = some id →
    frame.ahead tile < frame.ahead frame.start + grown ∨ frame.aside tile < frame.aside frame.start
  readers : ∀ readers ∈ draft.requests.toList, ∀ id ∈ readers,
    draft.At id fun tile => tile.x ≤ (frame.spot grown).x

theorem Fits.mono (h : Fits frame grown draft) (ha : frame.Aligned) (hg : grown ≤ grown') :
    Fits frame grown' draft where
  tidy := h.tidy
  quiet := h.quiet
  clear := by
    intro tile id hf
    rcases h.clear tile id hf with hc | hc
    · exact .inl (by omega)
    · exact .inr hc
  readers := fun readers hm id hid =>
    (h.readers readers hm id hid).imp fun _ hx => Int.le_trans hx (ha.spot_x_le hg)

/-- A new entity that stands behind or beside the tip of the construct. -/
theorem Fits.push {new : Entity} (h : Fits frame grown before)
    (he : after.blueprint.entities = before.blueprint.entities.push new)
    (hw : after.blueprint.wires = before.blueprint.wires) (ht : after.blueprint.Tidy)
    (hq : after.events = before.events) (hr : after.requests = before.requests)
    (hc : ∀ tile ∈ new.tiles, frame.ahead tile < frame.ahead frame.start + grown ∨
      frame.aside tile < frame.aside frame.start) : Fits frame grown after where
  tidy := ht
  quiet := by
    rw [hq]
    exact h.quiet
  clear := by
    intro tile id hf
    obtain ⟨entity, hentity, hm⟩ := (ht tile id).mp hf
    rw [Blueprint.entity?, he, Array.getElem?_push] at hentity
    split at hentity
    · cases hentity
      exact hc tile hm
    · exact h.clear tile id ((h.tidy tile id).mpr ⟨entity, hentity, hm⟩)
  readers := by
    rw [hr]
    exact fun readers hm id hid =>
      (h.readers readers hm id hid).extends (Blueprint.extends_push he hw)

theorem mem_rectangle_relay {tile place : Position}
    (h : place ∈ rectangle tile (Kind.relay.footprint 0)) : place = tile := by
  have hm : place ∈ (⟨0, .relay, tile, 0, none⟩ : Entity).tiles := h
  rw [Blueprint.tiles_of_relay rfl] at hm
  exact List.mem_singleton.mp hm

/-- A relay on a free tile. -/
theorem fits_relay {tile : Position} (h : Fits frame grown draft)
    (hf : draft.blueprint.find? tile = none)
    (ht : frame.ahead tile < frame.ahead frame.start + grown ∨
      frame.aside tile < frame.aside frame.start) :
    Fits frame grown ((put .relay tile).run draft).2 := by
  obtain ⟨htidy, hevents⟩ := @Blueprint.tidy_create draft.blueprint tile .relay h.tidy
    fun place hp => by rw [mem_rectangle_relay hp, hf]
  refine h.push Blueprint.entities_create rfl htidy ?_ rfl fun place hp => ?_
  · show (draft.blueprint.create .relay tile).2.2.reverse ++ draft.events = draft.events
    rw [hevents]
    rfl
  · rw [mem_rectangle_relay hp]
    exact ht

theorem stroke_fits (h : Stroke allowed before after)
    (ht : ∀ tile, allowed tile → frame.ahead tile < frame.ahead frame.start + grown)
    (hf : Fits frame grown before) : Fits frame grown after := by
  cases h with
  | relay hallowed hfree => exact fits_relay hf hfree (.inl (ht _ hallowed))
  | link color ha hb =>
    refine ⟨Blueprint.tidy_connect hf.tidy, hf.quiet, fun tile id hfind => hf.clear tile id ?_,
      fun readers hm id hid => (hf.readers readers hm id hid).extends Blueprint.extends_connect⟩
    rw [← hfind]
    exact (congrArg (Grid.find? · tile) Blueprint.entities_connect.2).symm
  | note poles routes => exact ⟨hf.tidy, hf.quiet, hf.clear, hf.readers⟩

/-- The entity stands no further ahead than the construct has grown. -/
def Passed (frame : Frame) (grown : Int) (draft : Draft) (id : EntityId) : Prop :=
  draft.At id fun tile => frame.ahead tile ≤ frame.ahead frame.start + grown

/-- A route between entities that are passed fits behind the tip of the construct. -/
theorem route_fits {first second : Terminal} (ha : frame.Aligned) (hg : draft.Grounded)
    (h : Fits frame grown draft) (hf : Passed frame grown draft first.entity)
    (hs : Passed frame grown draft second.entity) :
    Fits frame grown ((route frame first second color).run draft).2 := by
  refine strokes_preserve (P := Fits frame grown) (fun hstroke hb => stroke_fits hstroke ?_ hb)
    (route_strokes hg h.tidy.sound ha.upright hf.lt hs.lt color) h
  rintro tile ⟨-, hmax⟩
  have hfirst : frame.ahead (draft.place first) ≤ frame.ahead frame.start + grown := hf.place
  have hsecond : frame.ahead (draft.place second) ≤ frame.ahead frame.start + grown := hs.place
  have hlt : frame.ahead tile <
      max (frame.ahead (draft.place first)) (frame.ahead (draft.place second)) := hmax
  omega

theorem mem_rectangle {corner place : Position} {size : Int × Int}
    (h : place ∈ rectangle corner size) :
    (corner.x ≤ place.x ∧ place.x < corner.x + size.1) ∧
      corner.y ≤ place.y ∧ place.y < corner.y + size.2 := by
  obtain ⟨dx, hdx, hm⟩ := List.mem_flatMap.mp h
  obtain ⟨dy, hdy, rfl⟩ := List.mem_map.mp hm
  rw [List.mem_range] at hdx hdy
  simp only [Position.add_x, Position.add_y]
  omega

/-- The tiles right of and below the tip of a construct are free. -/
theorem Fits.free (h : Fits frame grown draft) (ha : frame.Aligned) {place : Position}
    (hx : (frame.spot grown).x ≤ place.x) (hy : (frame.spot grown).y ≤ place.y) :
    draft.blueprint.find? place = none := by
  cases hf : draft.blueprint.find? place with
  | none => rfl
  | some id =>
    exfalso
    have hc := h.clear place id hf
    rcases ha with ha | ha
    · rw [ha.ahead, ha.ahead, ha.aside, ha.aside] at hc
      rw [ha.spot] at hx hy
      dsimp only at hx hy
      omega
    · rw [ha.ahead, ha.ahead, ha.aside, ha.aside] at hc
      rw [ha.spot] at hx hy
      dsimp only at hx hy
      omega

/-- A combinator is one tile long in the direction of its construct. -/
theorem ahead_of_mem_tiles (ha : frame.Aligned) {place : Position}
    (h : place ∈ rectangle (frame.spot grown) (condition.kind.footprint (frame.rotation % 8))) :
    frame.ahead place < frame.ahead frame.start + (grown + 1) := by
  have hm := mem_rectangle h
  rcases ha with ha | ha
  · have hsize : condition.kind.footprint (frame.rotation % 8) = (1, 2) := by
      rw [ha.2]
      cases condition <;> rfl
    rw [hsize, ha.spot] at hm
    rw [ha.ahead, ha.ahead]
    dsimp only at hm
    omega
  · have hsize : condition.kind.footprint (frame.rotation % 8) = (2, 1) := by
      rw [ha.2]
      cases condition <;> rfl
    rw [hsize, ha.spot] at hm
    rw [ha.ahead, ha.ahead]
    dsimp only at hm
    omega

/-- A new combinator is put on free tiles, and turned onto free tiles. -/
theorem bare_tidy (h : Fits frame draft.grown draft) (ha : frame.Aligned) :
    ((bare frame condition feeds).run draft).2.blueprint.Tidy ∧
    ((bare frame condition feeds).run draft).2.events = draft.events := by
  have hfree : ∀ {size : Int × Int}, ∀ place ∈ rectangle (frame.spot draft.grown) size,
      draft.blueprint.find? place = none := fun place hp =>
    h.free ha (mem_rectangle hp).1.1 (mem_rectangle hp).2.1
  obtain ⟨hmade, hevents⟩ := @Blueprint.tidy_create draft.blueprint (frame.spot draft.grown)
    condition.kind h.tidy hfree
  obtain ⟨hturned, hevents'⟩ := @Blueprint.tidy_turn _ _ _ frame.rotation hmade
    Blueprint.entity?_create fun place hp => by
      rw [Blueprint.find?, Blueprint.create]
      dsimp only
      rw [Blueprint.find?_occupy_eq]
      split
      · exact .inr rfl
      · exact .inl (hfree place hp)
  rw [run_bare]
  refine ⟨Blueprint.tidy_configure hturned, ?_⟩
  show ((draft.blueprint.create condition.kind (frame.spot draft.grown)).2.1.turn
      draft.blueprint.size frame.rotation).2.reverse ++
    ((draft.blueprint.create condition.kind (frame.spot draft.grown)).2.2.reverse ++
      draft.events) = draft.events
  rw [hevents, hevents']
  rfl

theorem bare_fits (h : Fits frame draft.grown draft) (ha : frame.Aligned) :
    Fits frame (draft.grown + 1) ((bare frame condition feeds).run draft).2 ∧
    ((bare frame condition feeds).run draft).2.At draft.blueprint.size
      (· = frame.spot draft.grown) := by
  obtain ⟨htidy, hevents⟩ := @bare_tidy draft frame condition feeds h ha
  constructor
  · exact (h.mono ha (by omega)).push entities_bare wires_bare htidy hevents rfl
      fun place hp => .inl (ahead_of_mem_tiles ha hp)
  · exact ⟨_, entity?_bare, rfl⟩

/-- The entity stands no further ahead than the construct has grown, and not on its free side. -/
def Settled (frame : Frame) (grown : Int) (draft : Draft) (id : EntityId) : Prop :=
  draft.At id fun tile => frame.ahead tile ≤ frame.ahead frame.start + grown ∧
    frame.aside tile ≤ frame.aside frame.start

theorem Passed.mono (h : Passed frame grown before id)
    (he : before.blueprint.Extends after.blueprint) (hg : grown ≤ grown') :
    Passed frame grown' after id :=
  (h.extends he).imp fun _ ht => Int.le_trans ht (Int.add_le_add_left hg _)

theorem Settled.mono (h : Settled frame grown before id)
    (he : before.blueprint.Extends after.blueprint) (hg : grown ≤ grown') :
    Settled frame grown' after id :=
  (h.extends he).imp fun _ ht => ⟨Int.le_trans ht.1 (Int.add_le_add_left hg _), ht.2⟩

theorem Settled.passed (h : Settled frame grown draft id) : Passed frame grown draft id :=
  h.imp fun _ ht => ht.1

theorem Settled.x_le (h : Settled frame grown draft id) (ha : frame.Aligned) :
    draft.At id fun tile => tile.x ≤ (frame.spot grown).x := by
  refine h.imp fun tile ht => ?_
  rcases ha with ha | ha
  · rw [ha.spot]
    rw [ha.ahead, ha.ahead] at ht
    exact ht.1
  · rw [ha.spot]
    rw [ha.aside, ha.aside] at ht
    exact ht.2

/-- What stands is left alone while the construct stays as long as it is, and it still fits. -/
structure Keeps (frame : Frame) (grown : Int) (before after : Draft) : Prop where
  grounded : after.Grounded
  extend : before.blueprint.Extends after.blueprint
  same : after.grown = before.grown
  fits : Fits frame grown after

theorem Keeps.trans (h : Keeps frame grown before after) (h' : Keeps frame grown after later) :
    Keeps frame grown before later :=
  ⟨h'.grounded, h.extend.trans h'.extend, h'.same.trans h.same, h'.fits⟩

theorem stroke_grown (h : Stroke allowed before after) : after.grown = before.grown := by
  cases h <;> rfl

theorem route_keeps {first second : Terminal} (ha : frame.Aligned) (hg : draft.Grounded)
    (h : Fits frame grown draft) (hf : Passed frame grown draft first.entity)
    (hs : Passed frame grown draft second.entity) :
    Keeps frame grown draft ((route frame first second color).run draft).2 := by
  have hstrokes := route_strokes_anywhere hg h.tidy.sound ha.upright hf.lt hs.lt color
  exact ⟨act_grounded (.route color ha.upright hf.lt hs.lt) hg, strokes_extends hstrokes,
    strokes_preserve (P := fun later => later.grown = draft.grown)
      (fun hstroke hb => (stroke_grown hstroke).trans hb) hstrokes rfl,
    route_fits ha hg h hf hs⟩

/-- A new reader of a gate is no further right than the tip of its construct. -/
theorem fits_request {slot : Nat} (ha : frame.Aligned) (h : Fits frame grown draft)
    (hid : Settled frame grown draft id) : Fits frame grown ((request slot id).run draft).2 := by
  refine ⟨h.tidy, h.quiet, h.clear, ?_⟩
  intro readers hm reader hr
  rcases reader_of_request hm hr with rfl | ⟨old, ho, hr⟩
  · exact hid.x_le ha
  · exact h.readers old ho reader hr

theorem readFeed_keeps {feed : Feed} (ha : frame.Aligned) (hg : draft.Grounded)
    (h : Fits frame grown draft) (hid : Settled frame grown draft id)
    (hf : ∀ other ∈ Feed.entities [feed], Passed frame grown draft other) :
    Keeps frame grown draft ((readFeed frame id feed).run draft).2 := by
  cases feed with
  | request slot => exact ⟨grounded_request hg hid.lt, .refl _, rfl, fits_request ha h hid⟩
  | entity other =>
    rw [run_readFeed_entity]
    exact route_keeps ha hg h hid.passed (hf other (by simp [Feed.entities]))

theorem readFeeds_keeps (ha : frame.Aligned) (hg : draft.Grounded)
    (h : Fits frame grown draft) (hid : Settled frame grown draft id)
    (hf : ∀ other ∈ Feed.entities feeds, Passed frame grown draft other) :
    Keeps frame grown draft ((feeds.forM (readFeed frame id)).run draft).2 := by
  induction feeds generalizing draft with
  | nil => exact ⟨hg, .refl _, rfl, h⟩
  | cons feed rest ih =>
    have hsplit : Feed.entities (feed :: rest) = Feed.entities [feed] ++ Feed.entities rest :=
      entities_append [feed] rest
    rw [hsplit] at hf
    have hfirst := readFeed_keeps ha hg h hid fun other ho => hf other (List.mem_append_left _ ho)
    have hrest := ih hfirst.grounded hfirst.fits (hid.mono hfirst.extend (Int.le_refl _))
      fun other ho => (hf other (List.mem_append_right _ ho)).mono hfirst.extend (Int.le_refl _)
    exact hfirst.trans hrest

/-- What stands is left alone while the construct goes on, and it still fits. -/
structure Advances (frame : Frame) (before after : Draft) : Prop where
  grounded : after.Grounded
  extend : before.blueprint.Extends after.blueprint
  advance : before.grown ≤ after.grown
  fits : Fits frame after.grown after

theorem Advances.refl (hg : draft.Grounded) (h : Fits frame draft.grown draft) :
    Advances frame draft draft := ⟨hg, .refl _, Int.le_refl _, h⟩

theorem Advances.trans (h : Advances frame before after) (h' : Advances frame after later) :
    Advances frame before later :=
  ⟨h'.grounded, h.extend.trans h'.extend, Int.le_trans h.advance h'.advance, h'.fits⟩

theorem Keeps.advances (h : Keeps frame before.grown before after) :
    Advances frame before after :=
  ⟨h.grounded, h.extend, Int.le_of_eq h.same.symm, h.same ▸ h.fits⟩

/-- A combinator that reads what the construct has passed. -/
theorem place_advances (ha : frame.Aligned) (hg : draft.Grounded)
    (h : Fits frame draft.grown draft)
    (hf : ∀ id ∈ Feed.entities feeds, Passed frame draft.grown draft id) :
    Advances frame draft ((place frame condition feeds).run draft).2 ∧
    Settled frame ((place frame condition feeds).run draft).2.grown
      ((place frame condition feeds).run draft).2 ((place frame condition feeds).run draft).1 := by
  obtain ⟨hid, -⟩ := @bare_new draft frame condition feeds
  obtain ⟨hfits, hat⟩ := @bare_fits draft frame condition feeds h ha
  have hextend : draft.blueprint.Extends ((bare frame condition feeds).run draft).2.blueprint :=
    Blueprint.extends_push entities_bare wires_bare
  have hgrounded := @grounded_bare draft frame condition feeds hg
  have hgrown : ((bare frame condition feeds).run draft).2.grown = draft.grown := by
    rw [run_bare]
    rfl
  rw [run_place]
  generalize (bare frame condition feeds).run draft = made
    at hid hfits hat hextend hgrounded hgrown ⊢
  obtain ⟨id, made⟩ := made
  dsimp only at hid hfits hat hextend hgrounded hgrown ⊢
  rw [← hid] at hat
  have hsettled : Settled frame (draft.grown + 1) made id := by
    refine hat.imp fun tile ht => ?_
    rw [ht, ha.ahead_spot, ha.aside_spot]
    omega
  have hfeeds := readFeeds_keeps ha hgrounded hfits hsettled fun other ho =>
    (hf other ho).mono hextend (by omega)
  generalize ((feeds.forM (readFeed frame id)).run made).2 = fed at hfeeds ⊢
  have hlast : ((grow 1).run fed).2.grown = draft.grown + 1 := by
    show fed.grown + 1 = draft.grown + 1
    rw [hfeeds.same, hgrown]
  refine ⟨⟨⟨hfeeds.grounded.indexed, hfeeds.grounded.poles, hfeeds.grounded.requests⟩,
    hextend.trans hfeeds.extend, by omega, ?_⟩, ?_⟩
  · rw [hlast]
    exact ⟨hfeeds.fits.tidy, hfeeds.fits.quiet, hfeeds.fits.clear, hfeeds.fits.readers⟩
  · rw [hlast]
    exact hsettled.mono hfeeds.extend (Int.le_refl _)

end CircuitScript.Layout
