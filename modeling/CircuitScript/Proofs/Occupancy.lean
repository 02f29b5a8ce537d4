import CircuitScript.Proofs.RouteStrokes
/-!
Which tiles are taken. As long as entities are put down and turned onto tiles that are free, every
entity is found on all the tiles it covers, and nothing is reported.
-/
namespace CircuitScript

theorem Kind.one_le_footprint (kind : Kind) (direction : Nat) :
    1 ≤ (kind.footprint direction).1 ∧ 1 ≤ (kind.footprint direction).2 := by
  cases kind with
  | relay => exact ⟨Int.le_refl 1, Int.le_refl 1⟩
  | arithmetic | decider =>
    simp only [Kind.footprint]
    split <;> exact ⟨by decide, by decide⟩

theorem Entity.position_mem_tiles (entity : Entity) : entity.position ∈ entity.tiles := by
  obtain ⟨hwidth, hheight⟩ := entity.kind.one_le_footprint entity.direction
  refine List.mem_flatMap.mpr ⟨0, List.mem_range.mpr (by omega), ?_⟩
  refine List.mem_map.mpr ⟨0, List.mem_range.mpr (by omega), ?_⟩
  show (⟨entity.position.x + 0, entity.position.y + 0⟩ : Position) = entity.position
  rw [Int.add_zero, Int.add_zero]

namespace Blueprint

variable {blueprint : Blueprint} {grid : Grid} {id other : EntityId} {entity : Entity}
  {tile : Position}

/-- An entity is found exactly on the tiles that it covers. -/
def Tidy (blueprint : Blueprint) : Prop :=
  ∀ tile id, blueprint.find? tile = some id ↔
    ∃ entity, blueprint.entity? id = some entity ∧ tile ∈ entity.tiles

theorem Tidy.sound (h : Tidy blueprint) : Sound blueprint := fun tile id hf => (h tile id).mp hf

/-- No two entities cover one tile. -/
theorem Tidy.disjoint (h : Tidy blueprint) {entity' : Entity}
    (he : blueprint.entity? id = some entity) (ho : blueprint.entity? other = some entity')
    (ht : tile ∈ entity.tiles) (ht' : tile ∈ entity'.tiles) : id = other := by
  have hid := (h tile id).mpr ⟨entity, he, ht⟩
  have hother := (h tile other).mpr ⟨entity', ho, ht'⟩
  rw [hid] at hother
  exact Option.some.inj hother

theorem tidy_empty : Tidy .empty := by
  intro tile id
  constructor
  · intro h
    cases h
  · rintro ⟨entity, he, -⟩
    simp [entity?, empty] at he

/-- Nothing is reported about tiles that are free, or taken by the entity itself. -/
theorem occupy_quiet {tiles : List Position}
    (h : ∀ tile ∈ tiles, grid.find? tile = none ∨ grid.find? tile = some id) :
    (occupy grid id tiles).2 = [] := by
  induction tiles generalizing grid with
  | nil => rfl
  | cons first rest ih =>
    have hrest : ∀ tile ∈ rest, (grid.insert first id).find? tile = none ∨
        (grid.insert first id).find? tile = some id := by
      intro tile ht
      rw [Grid.find?_insert]
      split
      · exact .inr rfl
      · exact h tile (List.mem_cons_of_mem _ ht)
    rw [occupy]
    dsimp only
    rw [ih hrest]
    rcases h first List.mem_cons_self with hf | hf
    · rw [hf]
      rfl
    · rw [hf]
      simp

theorem tidy_create {kind : Kind} (h : Tidy blueprint)
    (hf : ∀ place ∈ rectangle tile (kind.footprint 0), blueprint.find? place = none) :
    Tidy (blueprint.create kind tile).2.1 ∧ (blueprint.create kind tile).2.2 = [] := by
  refine ⟨fun place id => ⟨sound_create h.sound place id, ?_⟩,
    occupy_quiet fun place hp => .inl (hf place hp)⟩
  rintro ⟨entity, he, ht⟩
  have hfind : (blueprint.create kind tile).2.1.find? place =
      if place ∈ rectangle tile (kind.footprint 0) then some blueprint.size
      else blueprint.find? place := find?_occupy_eq
  rw [hfind]
  by_cases hid : id = blueprint.size
  · subst hid
    rw [entity?_create] at he
    cases he
    exact if_pos ht
  · have hold : blueprint.entity? id = some entity := by
      rw [entity?, entities_create, Array.getElem?_push] at he
      exact (if_neg hid).symm.trans he
    have hplace := (h place id).mpr ⟨entity, hold, ht⟩
    rw [if_neg, hplace]
    intro hp
    rw [hf place hp] at hplace
    cases hplace

/-- An entity that leaves its tiles is found nowhere. -/
theorem Tidy.find?_release (h : Tidy blueprint) (he : blueprint.entity? id = some entity) :
    (blueprint.grid.release id entity.tiles).find? tile =
      if blueprint.find? tile = some id then none else blueprint.find? tile := by
  rw [find?_release_eq]
  by_cases hf : blueprint.find? tile = some id
  · obtain ⟨found, hfound, ht⟩ := (h tile id).mp hf
    rw [he] at hfound
    cases hfound
    exact (if_pos ⟨ht, hf⟩).trans (if_pos hf).symm
  · exact (if_neg fun hn => hf hn.2).trans (if_neg hf).symm

theorem tidy_turn {direction : Nat} (h : Tidy blueprint)
    (he : blueprint.entity? id = some entity)
    (hf : ∀ place ∈ rectangle entity.position (entity.kind.footprint (direction % 8)),
      blueprint.find? place = none ∨ blueprint.find? place = some id) :
    Tidy (blueprint.turn id direction).1 ∧ (blueprint.turn id direction).2 = [] := by
  constructor
  · refine fun place other => ⟨sound_turn h.sound place other, ?_⟩
    rintro ⟨found, hfound, ht⟩
    simp only [turn, he] at hfound ⊢
    rw [entity?, entity?_setIfInBounds he] at hfound
    rw [find?, find?_occupy_eq]
    -- The turned entity is found where it now lies; another one was not disturbed there.
    by_cases hid : id = other
    · subst hid
      rw [if_pos rfl] at hfound
      cases hfound
      exact if_pos ht
    · rw [if_neg hid] at hfound
      have hplace := (h place other).mpr ⟨found, hfound, ht⟩
      have hne : blueprint.find? place ≠ some id := by
        rw [hplace]
        exact fun heq => hid (Option.some.inj heq).symm
      rw [if_neg, h.find?_release he, if_neg hne, hplace]
      intro hp
      rcases hf place hp with hn | hn
      · rw [hplace] at hn
        cases hn
      · exact hne hn
  · simp only [turn, he]
    refine occupy_quiet fun place hp => .inl ?_
    rw [h.find?_release he]
    split
    · rfl
    · next hn => exact (hf place hp).resolve_right hn

theorem tidy_configure {condition : Condition} (h : Tidy blueprint) :
    Tidy (blueprint.configure id condition) := by
  cases he : blueprint.entity? id with
  | none =>
    simp only [configure, he]
    exact h
  | some entity =>
    simp only [configure, he]
    intro place other
    rw [entity?]
    dsimp only
    rw [entity?_setIfInBounds he]
    refine (h place other).trans ?_
    split
    · next hid =>
      subst hid
      constructor
      · rintro ⟨entity', he', ht⟩
        rw [he] at he'
        cases he'
        exact ⟨_, rfl, ht⟩
      · rintro ⟨_, ⟨⟩, ht⟩
        exact ⟨entity, he, ht⟩
    · rfl

theorem tidy_connect {fromSide toSide : End} {toId : EntityId} {color : Color}
    (h : Tidy blueprint) : Tidy (blueprint.connect id fromSide toId toSide color).2 := by
  intro place other
  rw [find?, entities_connect.2, entity?, entities_connect.1]
  exact h place other

end Blueprint

end CircuitScript
