import CircuitScript.Proofs.Occupancy
/-!
What is found on a tile. The grid keeps, for each tile, only the entity that came onto it last. So
an entity is found where it lies unless another one was put over it since; when that one leaves, the
tile is free for the grid though the first entity still lies there.
-/
namespace CircuitScript

namespace Position

theorem add_eq_iff {a b shift : Position} : a + shift = b ↔ a = b - shift := by
  obtain ⟨x, y⟩ := a
  obtain ⟨x', y'⟩ := b
  show Position.mk _ _ = Position.mk _ _ ↔ Position.mk _ _ = Position.mk _ _
  rw [Position.mk.injEq, Position.mk.injEq]
  dsimp only
  omega

theorem add_origin (a : Position) : a + .origin = a := by
  show Position.mk (a.x + 0) (a.y + 0) = a
  rw [Int.add_zero, Int.add_zero]

end Position

theorem Grid.find?_shift (grid : Grid) (offset tile : Position) :
    (grid.shift offset).find? tile = grid.find? (tile - offset) := by
  obtain ⟨entries⟩ := grid
  simp only [Grid.shift, Grid.find?]
  induction entries with
  | nil => rfl
  | cons entry rest ih =>
    have hsame : (tile == entry.1 + offset) = (tile - offset == entry.1) := by
      rw [Bool.eq_iff_iff, beq_iff_eq, beq_iff_eq, eq_comm, Position.add_eq_iff, eq_comm]
    rw [List.map_cons, List.lookup_cons, List.lookup_cons, hsame, ih]

namespace Blueprint

/-- The calls that put entities onto tiles. -/
inductive Call
  | create (kind : Kind) (position : Position)
  | turn (id : EntityId) (direction : Nat)
  | center
  deriving DecidableEq, Repr, Inhabited

/-- The blueprint after a call, and what the call reports. -/
def Call.apply (blueprint : Blueprint) : Call → Blueprint × List Event
  | create kind position => (blueprint.create kind position).2
  | turn id direction => blueprint.turn id direction
  | center => (blueprint.center, [])

/-- A new blueprint after some calls, the latest first. -/
def after : List Call → Blueprint
  | [] => .empty
  | call :: earlier => (call.apply (after earlier)).1

/-- What some calls on a new blueprint report. -/
def reports : List Call → List Event
  | [] => []
  | call :: earlier => reports earlier ++ (call.apply (after earlier)).2

/-- An entity lies on a tile. -/
def covers (blueprint : Blueprint) (id : EntityId) (tile : Position) : Bool :=
  (blueprint.entity? id).any fun entity => entity.tiles.contains tile

/-- The way by which all entities are moved when the blueprint is centred. -/
def drift (blueprint : Blueprint) : Position :=
  match blueprint.bounds? with
  | none => .origin
  | some (low, high) => ⟨-((low.x + high.x) / 2), -((low.y + high.y) / 2)⟩

/-- The entity that came onto a tile last, by being put down or turned, whether it still lies there
or not. Centring moves the tiles along with the entities. -/
def lastOn : List Call → Position → Option EntityId
  | [], _ => none
  | .create kind position :: earlier, tile =>
    if (after (.create kind position :: earlier)).covers (after earlier).size tile then
      some (after earlier).size
    else lastOn earlier tile
  | .turn id direction :: earlier, tile =>
    if (after (.turn id direction :: earlier)).covers id tile then some id else lastOn earlier tile
  | .center :: earlier, tile => lastOn earlier (tile - (after earlier).drift)

/-- What is found on a tile is the entity that lies on it, and nothing is found if none does. -/
def ExactAt (blueprint : Blueprint) (tile : Position) : Prop :=
  (∀ id, blueprint.find? tile = some id ↔ blueprint.covers id tile = true) ∧
    (blueprint.find? tile = none ↔ ∀ id, blueprint.covers id tile = false)

variable {blueprint : Blueprint} {id other : EntityId} {entity : Entity} {tile position : Position}
  {kind : Kind} {direction : Nat} {calls : List Call} {grid : Grid}

theorem covers_iff : blueprint.covers id tile = true ↔
    ∃ entity, blueprint.entity? id = some entity ∧ tile ∈ entity.tiles := by
  simp [covers, Option.any_eq_true]

theorem find?_create : (blueprint.create kind position).2.1.find? tile =
    if tile ∈ rectangle position (kind.footprint 0) then some blueprint.size
    else blueprint.find? tile := find?_occupy_eq

theorem covers_create : (blueprint.create kind position).2.1.covers id tile =
    if id = blueprint.size then decide (tile ∈ rectangle position (kind.footprint 0))
    else blueprint.covers id tile := by
  rw [covers, entity?, entities_create, Array.getElem?_push]
  split
  · next hid =>
    rw [if_pos (show id = blueprint.size from hid), Option.any_some, List.contains_eq_mem]
    rfl
  · next hid =>
    rw [if_neg (show id ≠ blueprint.size from hid)]
    rfl

theorem find?_turn (h : blueprint.entity? id = some entity) :
    (blueprint.turn id direction).1.find? tile =
      if (blueprint.turn id direction).1.covers id tile then some id
      else if tile ∈ entity.tiles ∧ blueprint.find? tile = some id then none
      else blueprint.find? tile := by
  have hcovers : (blueprint.turn id direction).1.covers id tile =
      decide (tile ∈ Entity.tiles { entity with direction := direction % 8 }) := by
    simp only [turn, h, covers]
    rw [entity?, entity?_setIfInBounds h, if_pos rfl, Option.any_some, List.contains_eq_mem]
  rw [hcovers]
  simp only [turn, h, decide_eq_true_eq]
  rw [find?, find?_occupy_eq, find?_release_eq]
  rfl

theorem covers_turn (h : other ≠ id) :
    (blueprint.turn id direction).1.covers other tile = blueprint.covers other tile := by
  cases he : blueprint.entity? id with
  | none => simp only [turn, he]
  | some entity =>
    simp only [turn, he, covers]
    rw [entity?, entity?_setIfInBounds he, if_neg h.symm]

/-- Centring is moving everything by one way. -/
theorem center_eq (blueprint : Blueprint) : blueprint.center =
    { blueprint with
      entities := blueprint.entities.map fun entity =>
        { entity with position := entity.position + blueprint.drift }
      grid := blueprint.grid.shift blueprint.drift } := by
  cases hbounds : blueprint.bounds? with
  | none =>
    have hdrift : blueprint.drift = .origin := by simp only [drift, hbounds]
    rw [hdrift]
    simp [center, hbounds, Grid.shift, Position.add_origin]
  | some corners =>
    have hdrift : blueprint.drift = ⟨-((corners.1.x + corners.2.x) / 2),
        -((corners.1.y + corners.2.y) / 2)⟩ := by simp only [drift, hbounds]
    rw [hdrift]
    simp only [center, hbounds]

theorem find?_center : blueprint.center.find? tile = blueprint.find? (tile - blueprint.drift) := by
  rw [find?, center_eq]
  exact Grid.find?_shift _ _ _

theorem mem_rectangle_shift {shift : Position} {size : Int × Int} :
    tile ∈ rectangle (position + shift) size ↔ tile - shift ∈ rectangle position size := by
  have hmove : ∀ dx dy : Nat, position + shift + ⟨dx, dy⟩ = tile ↔
      position + ⟨dx, dy⟩ = tile - shift := by
    intro dx dy
    rw [← Position.add_eq_iff]
    have hswap : position + shift + ⟨dx, dy⟩ = position + ⟨dx, dy⟩ + shift := by
      show Position.mk _ _ = Position.mk _ _
      rw [Position.mk.injEq]
      exact ⟨Int.add_right_comm _ _ _, Int.add_right_comm _ _ _⟩
    rw [hswap]
  simp only [rectangle, List.mem_flatMap, List.mem_map, hmove]

theorem covers_center :
    blueprint.center.covers id tile = blueprint.covers id (tile - blueprint.drift) := by
  rw [covers, covers, entity?, center_eq]
  dsimp only
  rw [Array.getElem?_map, Option.any_map, entity?]
  cases blueprint.entities[id]? with
  | none => rfl
  | some entity =>
    rw [Option.any_some, Option.any_some, List.contains_eq_mem, List.contains_eq_mem]
    exact decide_eq_decide.mpr mem_rectangle_shift

/-- Whatever is found lies there, and it came last. -/
theorem find?_after_iff (calls : List Call) (tile : Position) (id : EntityId) :
    (after calls).find? tile = some id ↔
      (after calls).covers id tile = true ∧ lastOn calls tile = some id := by
  induction calls generalizing tile id with
  | nil => simp [after, lastOn, find?, empty]
  | cons call earlier ih =>
    cases call with
    | create kind position =>
      have hold : (after earlier).covers (after earlier).size tile = false := by
        rw [covers, entity?, size, Array.getElem?_size]
        rfl
      simp only [lastOn, after, Call.apply, find?_create, covers_create, if_pos,
        decide_eq_true_eq]
      grind
    | turn turned direction =>
      cases he : (after earlier).entity? turned with
      | none =>
        have hsame : after (.turn turned direction :: earlier) = after earlier := by
          simp only [after, Call.apply, turn, he]
        have hnone : (after earlier).covers turned tile = false := by
          rw [covers, he]
          rfl
        simp only [lastOn, hsame, hnone, ih, Bool.false_eq_true, if_false]
      | some entity =>
        have hold : (after earlier).covers turned tile = decide (tile ∈ entity.tiles) := by
          rw [covers, he, Option.any_some, List.contains_eq_mem]
        have hself := ih tile turned
        have hother := ih tile id
        simp only [lastOn, after, Call.apply, find?_turn he]
        by_cases hid : id = turned
        · subst hid
          grind
        · rw [covers_turn hid]
          grind
    | center =>
      simp only [lastOn, after, Call.apply, find?_center, covers_center, ih]

theorem exactAt_iff : blueprint.ExactAt tile ↔
    ∀ id, blueprint.find? tile = some id ↔ blueprint.covers id tile = true := by
  refine ⟨And.left, fun h => ⟨h, ?_⟩⟩
  rw [Option.eq_none_iff_forall_ne_some]
  exact forall_congr' fun id => (not_congr (h id)).trans (Bool.not_eq_true _).to_iff

theorem tidy_iff : Tidy blueprint ↔ ∀ tile, blueprint.ExactAt tile := by
  simp only [exactAt_iff, covers_iff, Tidy]

theorem sound_iff : Sound blueprint ↔
    ∀ tile id, blueprint.find? tile = some id → blueprint.covers id tile = true := by
  simp only [covers_iff, Sound]

theorem sound_center (h : Sound blueprint) : Sound blueprint.center := by
  rw [sound_iff] at h ⊢
  intro tile id
  rw [find?_center, covers_center]
  exact h _ id

theorem tidy_center (h : Tidy blueprint) : Tidy blueprint.center := by
  simp only [tidy_iff, exactAt_iff] at h ⊢
  intro tile id
  rw [find?_center, covers_center]
  exact h _ id

/-- If nothing is reported, every tile was free or taken by the entity itself. -/
theorem free_of_quiet {tiles : List Position} (h : (occupy grid id tiles).2 = []) :
    ∀ tile ∈ tiles, grid.find? tile = none ∨ grid.find? tile = some id := by
  induction tiles generalizing grid with
  | nil => exact fun tile hmem => absurd hmem List.not_mem_nil
  | cons first rest ih =>
    rw [occupy] at h
    dsimp only at h
    obtain ⟨hfirst, hrest⟩ := List.append_eq_nil_iff.mp h
    have hfree : grid.find? first = none ∨ grid.find? first = some id := by
      cases hfound : grid.find? first with
      | none => exact .inl rfl
      | some other => grind
    intro tile hmem
    by_cases heq : tile = first
    · exact heq ▸ hfree
    · have hlater := ih hrest tile ((List.mem_cons.mp hmem).resolve_left heq)
      rwa [Grid.find?_insert, if_neg heq] at hlater

theorem tidy_of_quiet_create (h : Tidy blueprint)
    (hquiet : (blueprint.create kind position).2.2 = []) :
    Tidy (blueprint.create kind position).2.1 := by
  refine (tidy_create h fun place hplace => ?_).1
  refine (free_of_quiet hquiet place hplace).resolve_right fun hself => ?_
  obtain ⟨entity, hentity, -⟩ := h.sound place _ hself
  rw [entity?, size, Array.getElem?_size] at hentity
  cases hentity

theorem tidy_of_quiet_turn (h : Tidy blueprint) (hquiet : (blueprint.turn id direction).2 = []) :
    Tidy (blueprint.turn id direction).1 := by
  cases he : blueprint.entity? id with
  | none =>
    simp only [turn, he]
    exact h
  | some entity =>
    refine (tidy_turn h he fun place hplace => ?_).1
    simp only [turn, he] at hquiet
    have hfree := free_of_quiet hquiet place hplace
    rw [h.find?_release he] at hfree
    split at hfree
    · next hself => exact .inr hself
    · exact hfree

theorem tidy_after (h : reports calls = []) : Tidy (after calls) := by
  induction calls with
  | nil => exact tidy_empty
  | cons call earlier ih =>
    obtain ⟨hearlier, hquiet⟩ := List.append_eq_nil_iff.mp h
    cases call with
    | create kind position => exact tidy_of_quiet_create (ih hearlier) hquiet
    | turn id direction => exact tidy_of_quiet_turn (ih hearlier) hquiet
    | center => exact tidy_center (ih hearlier)

/-- An entity is found exactly on those of its tiles onto which nothing else came after it, even if
what came has left again. So all is found just where it lies unless an overlap took a tile away;
none did as long as no overlap is reported. -/
theorem index_exact (calls : List Call) :
    (∀ tile id, (after calls).find? tile = some id ↔
      (after calls).covers id tile = true ∧ lastOn calls tile = some id) ∧
    (∀ tile, (after calls).ExactAt tile ↔
      ∀ id, (after calls).covers id tile = true → lastOn calls tile = some id) ∧
    (reports calls = [] → ∀ tile, (after calls).ExactAt tile) := by
  refine ⟨find?_after_iff calls, fun tile => ?_, fun h => tidy_iff.mp (tidy_after h)⟩
  simp only [exactAt_iff, find?_after_iff, and_iff_left_iff_imp]

/-- A combinator that is turned next to a relay, in a blueprint that is then centred. -/
theorem index_exact_turned :
    let calls : List Call := [.center, .create .relay ⟨0, 1⟩, .turn 0 2, .create .arithmetic ⟨0, 0⟩]
    reports calls = [] ∧ (after calls).ExactAt ⟨-1, 0⟩ ∧ (after calls).find? ⟨-1, 0⟩ = some 1 := by
  exact ⟨by decide, (index_exact _).2.2 (by decide) _, by decide⟩

/-- A combinator that is created across a relay and then turned off it takes the tile away: the
footprints are apart, and the relay is found nowhere. -/
theorem relay_lost_under_combinator :
    let calls : List Call := [.turn 1 2, .create .arithmetic ⟨0, 0⟩, .create .relay ⟨0, 1⟩]
    (after calls).tiles.Nodup ∧ (after calls).covers 0 ⟨0, 1⟩ = true ∧
      (after calls).find? ⟨0, 1⟩ = none := by
  decide

end Blueprint

end CircuitScript
