import CircuitScript.Proofs.CompileOutcome
import CircuitScript.Proofs.SpatialIndex
/-!
Centring. The bounds are the smallest rectangle around all tiles that are covered. Centring moves
everything by one way, after which the bounds lie around the origin, so that doing it again moves
nothing.
-/
namespace CircuitScript.Blueprint

variable {blueprint : Blueprint} {low high tile : Position} {tiles : List Position}

/-- Every tile lies in the rectangle that begins at `low` and ends before `high`. -/
def Framed (low high : Position) (tiles : List Position) : Prop :=
  ∀ tile ∈ tiles, low.x ≤ tile.x ∧ low.y ≤ tile.y ∧ tile.x < high.x ∧ tile.y < high.y

/-- What holds of two values joined just when it holds of both, holds of all values joined just when
it holds of each. -/
theorem foldl_iff {α : Type} {P : α → Prop} (join : α → α → α)
    (h : ∀ a b, P (join a b) ↔ P a ∧ P b) (first : α) (rest : List α) :
    P (rest.foldl join first) ↔ ∀ a ∈ first :: rest, P a := by
  induction rest generalizing first with
  | nil => simp
  | cons second rest ih =>
    rw [List.foldl_cons, ih, List.forall_mem_cons, List.forall_mem_cons, List.forall_mem_cons, h,
      and_assoc]

/-- A rectangle holds every tile just when it holds the bounds. -/
theorem framed_iff (h : blueprint.bounds? = some (low, high)) (low' high' : Position) :
    Framed low' high' blueprint.tiles ↔
      low'.x ≤ low.x ∧ low'.y ≤ low.y ∧ high.x ≤ high'.x ∧ high.y ≤ high'.y := by
  rw [bounds?] at h
  split at h
  · cases h
  · next first rest htiles =>
    cases h
    have hlow := foldl_iff (P := fun tile : Position => low'.x ≤ tile.x ∧ low'.y ≤ tile.y)
      (fun a tile => ⟨min a.x tile.x, min a.y tile.y⟩)
      (fun a b => by dsimp only; omega) first rest
    have hhigh := foldl_iff (P := fun tile : Position => tile.x < high'.x ∧ tile.y < high'.y)
      (fun a tile => ⟨max a.x tile.x, max a.y tile.y⟩)
      (fun a b => by dsimp only; omega) first rest
    rw [Framed, htiles]
    rw [Position.add_x, Position.add_y, Int.add_one_le_iff, Int.add_one_le_iff, ← and_assoc, hlow,
      hhigh, ← forall₂_and]
    exact forall₂_congr fun tile _ => and_assoc.symm

theorem exists_bounds (h : 0 < blueprint.size) :
    ∃ low high, blueprint.bounds? = some (low, high) := by
  obtain ⟨entity, hentity⟩ := Array.size_pos_iff_exists_mem.mp h
  have hfirst : entity.position ∈ blueprint.tiles :=
    List.mem_flatMap.mpr ⟨entity, Array.mem_toList_iff.mpr hentity, entity.position_mem_tiles⟩
  rw [bounds?]
  split
  · next hnone =>
    rw [hnone] at hfirst
    cases hfirst
  · exact ⟨_, _, rfl⟩

theorem mem_tiles_center :
    tile ∈ blueprint.center.tiles ↔ tile - blueprint.drift ∈ blueprint.tiles := by
  rw [tiles, tiles, center_eq, Array.toList_map, List.flatMap_map, List.mem_flatMap,
    List.mem_flatMap]
  exact exists_congr fun entity => and_congr_right fun _ => mem_rectangle_shift

theorem framed_center (low' high' : Position) :
    Framed low' high' blueprint.center.tiles ↔
      Framed (low' - blueprint.drift) (high' - blueprint.drift) blueprint.tiles := by
  constructor
  · intro h tile htile
    have hmoved := h (tile + blueprint.drift) (by
      rwa [mem_tiles_center, ← Position.add_eq_iff.mp rfl])
    simp only [Position.add_x, Position.add_y, Position.sub_x, Position.sub_y] at hmoved ⊢
    omega
  · intro h tile htile
    have hmoved := h _ (mem_tiles_center.mp htile)
    simp only [Position.sub_x, Position.sub_y] at hmoved
    omega

theorem size_center : blueprint.center.size = blueprint.size := by
  rw [size, center_eq, Array.size_map, size]

/-- The bounds move along. -/
theorem bounds?_center (h : blueprint.bounds? = some (low, high)) (hsize : 0 < blueprint.size) :
    blueprint.center.bounds? = some (low + blueprint.drift, high + blueprint.drift) := by
  obtain ⟨⟨lowX, lowY⟩, ⟨highX, highY⟩, hfound⟩ := exists_bounds (size_center ▸ hsize)
  -- The same rectangles hold both, so each of the two lies in the other.
  have hsame : ∀ low' high', _ := fun low' high' =>
    (framed_iff hfound low' high').symm.trans ((framed_center low' high').trans (framed_iff h _ _))
  have hold := (hsame (low + blueprint.drift) (high + blueprint.drift)).mpr
  have hnew := (hsame ⟨lowX, lowY⟩ ⟨highX, highY⟩).mp
  simp only [Position.add_x, Position.add_y, Position.sub_x, Position.sub_y] at hold hnew
  rw [hfound, Option.some.injEq, Prod.mk.injEq]
  show Position.mk _ _ = Position.mk _ _ ∧ Position.mk _ _ = Position.mk _ _
  rw [Position.mk.injEq, Position.mk.injEq]
  omega

theorem drift_eq (h : blueprint.bounds? = some (low, high)) :
    blueprint.drift = ⟨-((low.x + high.x) / 2), -((low.y + high.y) / 2)⟩ := by
  simp only [drift, h]

/-- The middle of the bounds is the origin, or half a tile beyond it. -/
theorem middle_center (h : blueprint.bounds? = some (low, high)) (hsize : 0 < blueprint.size) :
    ∃ low' high', blueprint.center.bounds? = some (low', high') ∧
      (low'.x + high'.x = 0 ∨ low'.x + high'.x = 1) ∧
      (low'.y + high'.y = 0 ∨ low'.y + high'.y = 1) := by
  refine ⟨_, _, bounds?_center h hsize, ?_⟩
  simp only [drift_eq h, Position.add_x, Position.add_y]
  omega

theorem center_center (hsize : 0 < blueprint.size) :
    blueprint.center.center = blueprint.center := by
  obtain ⟨low, high, h⟩ := exists_bounds hsize
  obtain ⟨low', high', h', hx, hy⟩ := middle_center h hsize
  have hdrift : blueprint.center.drift = .origin := by
    rw [drift_eq h']
    show Position.mk _ _ = Position.mk _ _
    rw [Position.mk.injEq]
    omega
  rw [center_eq, hdrift]
  simp [Grid.shift, Position.add_origin]

/-- The bounds are the smallest rectangle around all tiles that are covered. Centring moves every
entity and every tile of the grid by one way and changes nothing else; the middle of the bounds is
then the origin, or half a tile beyond it, so that centring again changes nothing. -/
theorem center_translates (blueprint : Blueprint) (h : 0 < blueprint.size) :
    ∃ low high shift low' high',
      blueprint.bounds? = some (low, high) ∧ Framed low high blueprint.tiles ∧
      (∀ first last, Framed first last blueprint.tiles →
        first.x ≤ low.x ∧ first.y ≤ low.y ∧ high.x ≤ last.x ∧ high.y ≤ last.y) ∧
      blueprint.center = { blueprint with
        entities := blueprint.entities.map fun entity =>
          { entity with position := entity.position + shift }
        grid := blueprint.grid.shift shift } ∧
      (∀ tile, blueprint.center.find? (tile + shift) = blueprint.find? tile) ∧
      blueprint.center.bounds? = some (low', high') ∧
      (low'.x + high'.x = 0 ∨ low'.x + high'.x = 1) ∧
      (low'.y + high'.y = 0 ∨ low'.y + high'.y = 1) ∧
      blueprint.center.center = blueprint.center := by
  obtain ⟨low, high, hbounds⟩ := exists_bounds h
  obtain ⟨low', high', hcentered, hx, hy⟩ := middle_center hbounds h
  have hleast := framed_iff hbounds
  refine ⟨low, high, blueprint.drift, low', high', hbounds, ?_, fun first last => (hleast _ _).mp,
    center_eq blueprint, fun tile => ?_, hcentered, hx, hy, center_center h⟩
  · exact (hleast low high).mpr ⟨Int.le_refl _, Int.le_refl _, Int.le_refl _, Int.le_refl _⟩
  · rw [find?_center, ← Position.add_eq_iff.mp rfl]

/-- A combinator that lies across, wired to a relay far to its upper left. -/
def spread : Blueprint :=
  let placed := (((empty.create .decider ⟨-3, 2⟩).2.1.turn 0 6).1.create .relay ⟨-8, -5⟩).2.1
  (placed.connect 0 .output 1 .input .red).2

theorem center_translates_spread :
    0 < spread.size ∧ spread.bounds? = some (⟨-8, -5⟩, ⟨-1, 3⟩) ∧
      ∃ shift : Position, (∀ tile, spread.center.find? (tile + shift) = spread.find? tile) ∧
        spread.center.find? ⟨2, 3⟩ = some 0 ∧ spread.center.bounds? = some (⟨-3, -4⟩, ⟨4, 4⟩) ∧
        spread.center.center = spread.center := by
  obtain ⟨_, _, shift, _, _, -, -, -, -, hfind, -, -, -, hagain⟩ :=
    center_translates spread (by decide)
  exact ⟨by decide, by decide, shift, hfind, by decide, by decide +kernel, hagain⟩

end CircuitScript.Blueprint
