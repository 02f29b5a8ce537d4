import CircuitScript.Blueprint.Basic
import Mathlib.Logic.Relation
/-!
Networks. Terminals that wires of one colour lead to from each other are on one network; building
goes on by adding entities and wires, so networks only grow.
-/
namespace CircuitScript.Blueprint

variable {blueprint before after later : Blueprint} {id other : EntityId} {entity : Entity}
  {wire : Wire} {a b first second : Terminal} {color : Color} {tile : Position} {grid : Grid}

/-- Some wire of a colour leads from one terminal to the other. -/
def Wired (blueprint : Blueprint) (color : Color) (a b : Terminal) : Prop :=
  (⟨a, b, color⟩ : Wire) ∈ blueprint.wires

/-- The terminals are on one network of a colour. -/
def Joined (blueprint : Blueprint) (color : Color) : Terminal → Terminal → Prop :=
  Relation.EqvGen (blueprint.Wired color)

/-- The terminal that a wire to `terminal` ends at: a relay has only one. -/
def vertex (blueprint : Blueprint) (terminal : Terminal) : Terminal :=
  blueprint.terminal terminal.entity terminal.side

/-- What is built stays: entities keep their kind and their place, and no wire is taken away. -/
structure Grows (before after : Blueprint) : Prop where
  entity : ∀ {id entity}, before.entity? id = some entity → ∃ entity', after.entity? id = some entity' ∧
    entity'.kind = entity.kind ∧ entity'.position = entity.position
  wire : ∀ {wire}, wire ∈ before.wires → wire ∈ after.wires

/-- Every entity that is found on some tile exists. -/
def Indexed (blueprint : Blueprint) : Prop :=
  ∀ {tile id}, blueprint.find? tile = some id → id < blueprint.size

/-- Entities are numbered from zero without gaps. -/
theorem entity?_eq_some_iff : (∃ entity, blueprint.entity? id = some entity) ↔ id < blueprint.size := by
  constructor
  · rintro ⟨entity, h⟩
    exact (Array.getElem?_eq_some_iff.mp h).1
  · intro h
    exact ⟨_, Array.getElem?_eq_getElem h⟩

theorem Grows.refl (blueprint : Blueprint) : Grows blueprint blueprint :=
  ⟨fun h => ⟨_, h, rfl, rfl⟩, fun h => h⟩

theorem Grows.trans (h : Grows before after) (h' : Grows after later) : Grows before later where
  entity := by
    intro id entity he
    obtain ⟨entity', he', hk, hp⟩ := h.entity he
    obtain ⟨entity'', he'', hk', hp'⟩ := h'.entity he'
    exact ⟨entity'', he'', hk'.trans hk, hp'.trans hp⟩
  wire := fun hw => h'.wire (h.wire hw)

theorem Grows.lt (h : Grows before after) (hi : id < before.size) : id < after.size := by
  obtain ⟨entity, he⟩ := entity?_eq_some_iff.mpr hi
  obtain ⟨entity', he', -⟩ := h.entity he
  exact entity?_eq_some_iff.mp ⟨entity', he'⟩

/-- No entity changes its kind. -/
theorem Grows.isRelay (h : Grows before after) (hi : id < before.size) :
    after.isRelay id = before.isRelay id := by
  obtain ⟨entity, he⟩ := entity?_eq_some_iff.mpr hi
  obtain ⟨entity', he', hk, -⟩ := h.entity he
  simp [Blueprint.isRelay, he, he', hk]

theorem lt_of_isRelay (h : blueprint.isRelay id = true) : id < blueprint.size := by
  unfold Blueprint.isRelay at h
  cases he : blueprint.entity? id with
  | none => simp [he] at h
  | some entity => exact entity?_eq_some_iff.mp ⟨entity, he⟩

theorem Grows.isRelay_of_isRelay (h : Grows before after) (hr : before.isRelay id = true) :
    after.isRelay id = true := by
  rw [h.isRelay (lt_of_isRelay hr), hr]

/-- So a terminal stays the same vertex. -/
theorem Grows.vertex (h : Grows before after) (hi : a.entity < before.size) :
    after.vertex a = before.vertex a := by
  simp [Blueprint.vertex, Blueprint.terminal, h.isRelay hi]

@[simp] theorem vertex_input (id : EntityId) : blueprint.vertex ⟨id, .input⟩ = ⟨id, .input⟩ := by
  simp [vertex, terminal]

/-- An equivalence that holds along every edge holds along every path. -/
theorem of_eqvGen {edge holds : Terminal → Terminal → Prop} (hq : Equivalence holds)
    (he : ∀ x y, edge x y → holds x y) (h : Relation.EqvGen edge a b) : holds a b :=
  hq.eqvGen_iff.mp (Relation.EqvGen.mono he _ _ h)

/-- A set of terminals that no edge leaves holds everything that a path leads to from its members. -/
theorem mem_of_eqvGen {edge : Terminal → Terminal → Prop} {inside : Terminal → Bool}
    (he : ∀ x y, edge x y → inside x = inside y) (h : Relation.EqvGen edge a b) :
    inside a = inside b := by
  have hq : Equivalence fun x y => inside x = inside y :=
    ⟨fun _ => rfl, fun h => h.symm, fun h h' => h.trans h'⟩
  exact of_eqvGen hq he h

/-- What is joined stays so, as no wire is taken away. -/
theorem Joined.mono (h : Grows before after) (hj : before.Joined color a b) :
    after.Joined color a b :=
  Relation.EqvGen.mono (fun _ _ hw => h.wire hw) _ _ hj

/-- A wire is put in its place by order, and put nowhere if it is there already. -/
theorem mem_placeWire {wires : List Wire} {new : Wire} :
    wire ∈ placeWire new wires ↔ wire = new ∨ wire ∈ wires := by
  induction wires with
  | nil => simp [placeWire]
  | cons other rest ih =>
    unfold placeWire
    split
    · next h => simp [h]
    · split
      · simp
      · simp only [List.mem_cons, ih]
        exact or_left_comm

/-- A new wire is all that changes, and there is one unless both ends are the same terminal. -/
theorem mem_wires_connect {fromSide toSide : End} {toId : EntityId} :
    wire ∈ (blueprint.connect id fromSide toId toSide color).2.wires ↔
      wire ∈ blueprint.wires ∨
        (blueprint.terminal id fromSide ≠ blueprint.terminal toId toSide ∧
          wire = Wire.between (blueprint.terminal id fromSide) (blueprint.terminal toId toSide)
            color) := by
  unfold connect
  dsimp only
  split
  · next h =>
    constructor
    · exact .inl
    · rintro (hw | ⟨hne, rfl⟩)
      · exact hw
      · exact h.resolve_left hne
  · next h =>
    rw [not_or] at h
    rw [mem_placeWire, or_comm, ne_eq, and_iff_right h.1]

/-- Drawing a wire touches wires only. -/
theorem entities_connect {fromSide toSide : End} {toId : EntityId} :
    (blueprint.connect id fromSide toId toSide color).2.entities = blueprint.entities ∧
    (blueprint.connect id fromSide toId toSide color).2.grid = blueprint.grid := by
  unfold connect
  dsimp only
  split <;> exact ⟨rfl, rfl⟩

theorem grows_connect {fromSide toSide : End} {toId : EntityId} :
    Grows blueprint (blueprint.connect id fromSide toId toSide color).2 where
  entity := by
    intro other entity he
    refine ⟨entity, ?_, rfl, rfl⟩
    rw [entity?, entities_connect.1]
    exact he
  wire := fun hw => mem_wires_connect.mpr (.inl hw)

/-- It does not matter in which order the ends of a wire are given. -/
theorem joined_between (h : Wire.between first second color ∈ blueprint.wires) :
    blueprint.Joined color first second := by
  unfold Wire.between at h
  split at h
  · exact .rel _ _ h
  · exact .symm _ _ (.rel _ _ h)

/-- Wiring puts both ends on one network. -/
theorem joined_connect {fromSide toSide : End} {toId : EntityId} :
    (blueprint.connect id fromSide toId toSide color).2.Joined color
      (blueprint.terminal id fromSide) (blueprint.terminal toId toSide) := by
  by_cases h : blueprint.terminal id fromSide = blueprint.terminal toId toSide
  · rw [h]
    exact .refl _
  · exact joined_between (mem_wires_connect.mpr (.inr ⟨h, rfl⟩))

/-- Nor does it matter for what both ends have in common. -/
theorem mem_of_between {ends : List Terminal} (ha : first ∈ ends) (hb : second ∈ ends) :
    (Wire.between first second color).a ∈ ends ∧ (Wire.between first second color).b ∈ ends ∧
      (Wire.between first second color).color = color := by
  unfold Wire.between
  split
  · exact ⟨ha, hb, rfl⟩
  · exact ⟨hb, ha, rfl⟩

@[simp] theorem create_id {kind : Kind} : (blueprint.create kind tile).1 = blueprint.size := rfl

@[simp] theorem wires_create {kind : Kind} :
    (blueprint.create kind tile).2.1.wires = blueprint.wires := rfl

theorem entities_create {kind : Kind} :
    (blueprint.create kind tile).2.1.entities =
      blueprint.entities.push ⟨blueprint.size, kind, tile, 0, none⟩ := rfl

theorem size_create {kind : Kind} : (blueprint.create kind tile).2.1.size = blueprint.size + 1 := by
  rw [size, entities_create, Array.size_push]
  rfl

theorem entity?_create {kind : Kind} :
    (blueprint.create kind tile).2.1.entity? blueprint.size =
      some ⟨blueprint.size, kind, tile, 0, none⟩ := by
  rw [entity?, entities_create, size, Array.getElem?_push_size]

/-- A new entity takes the next number, so all others keep theirs. -/
theorem grows_create {kind : Kind} : Grows blueprint (blueprint.create kind tile).2.1 where
  entity := by
    intro id entity he
    refine ⟨entity, ?_, rfl, rfl⟩
    have hi : id < blueprint.entities.size := entity?_eq_some_iff.mp ⟨entity, he⟩
    rw [entity?, entities_create, Array.getElem?_push, if_neg (Nat.ne_of_lt hi)]
    exact he
  wire := fun hw => hw

theorem isRelay_create : (blueprint.create .relay tile).2.1.isRelay blueprint.size = true := by
  rw [isRelay, entity?_create]
  rfl

/-- Only the entity that is replaced changes. -/
theorem entity?_setIfInBounds (h : blueprint.entity? id = some entity) {new : Entity} :
    (blueprint.entities.setIfInBounds id new)[other]? =
      if id = other then some new else blueprint.entity? other := by
  have hi : id < blueprint.entities.size := entity?_eq_some_iff.mp ⟨entity, h⟩
  rw [Array.getElem?_setIfInBounds, if_pos hi]
  rfl

/-- Replacing an entity by one of the same kind in the same place changes no network. -/
theorem grows_set (h : blueprint.entity? id = some entity) {new : Entity}
    (ha : after.entities = blueprint.entities.setIfInBounds id new)
    (hw : after.wires = blueprint.wires) (hk : new.kind = entity.kind)
    (hp : new.position = entity.position) : Grows blueprint after where
  entity := by
    intro other old ho
    rw [Blueprint.entity?, ha, entity?_setIfInBounds h]
    split
    · next heq =>
      subst heq
      rw [h] at ho
      cases ho
      exact ⟨new, rfl, hk, hp⟩
    · exact ⟨old, ho, rfl, rfl⟩
  wire := by
    intro wire hm
    rw [hw]
    exact hm

/-- Turned, an entity is still of the same kind. -/
theorem grows_turn {direction : Nat} : Grows blueprint (blueprint.turn id direction).1 := by
  cases h : blueprint.entity? id with
  | none =>
    simp only [turn, h]
    exact .refl _
  | some entity =>
    simp only [turn, h]
    exact grows_set h rfl rfl rfl rfl

theorem grows_configure {condition : Condition} :
    Grows blueprint (blueprint.configure id condition) := by
  cases h : blueprint.entity? id with
  | none =>
    simp only [configure, h]
    exact .refl _
  | some entity =>
    simp only [configure, h]
    exact grows_set h rfl rfl rfl rfl

theorem wires_turn {direction : Nat} : (blueprint.turn id direction).1.wires = blueprint.wires := by
  unfold turn
  split <;> rfl

theorem wires_configure {condition : Condition} :
    (blueprint.configure id condition).wires = blueprint.wires := by
  unfold configure
  split <;> rfl

/-- A tile is newly held by the entity that takes it, or held as before. -/
theorem find?_occupy {tiles : List Position} (h : (occupy grid id tiles).1.find? tile = some other) :
    other = id ∨ grid.find? tile = some other := by
  induction tiles generalizing grid with
  | nil => exact .inr h
  | cons first rest ih =>
    rcases ih h with hi | hi
    · exact .inl hi
    · rw [Grid.find?_insert] at hi
      split at hi
      · exact .inl (Option.some.inj hi).symm
      · exact .inr hi

/-- No tile gets a new holder by being given up. -/
theorem find?_release {tiles : List Position} (h : (grid.release id tiles).find? tile = some other) :
    grid.find? tile = some other := by
  induction tiles generalizing grid with
  | nil => exact h
  | cons first rest ih =>
    have hr := ih h
    dsimp only at hr
    split at hr
    · rw [Grid.find?_erase] at hr
      split at hr
      · cases hr
      · exact hr
    · exact hr

theorem indexed_create {kind : Kind} (h : Indexed blueprint) :
    Indexed (blueprint.create kind tile).2.1 := by
  intro place id hf
  rw [size_create]
  rcases find?_occupy hf with rfl | ho
  · exact Nat.lt_succ_self _
  · exact Nat.lt_succ_of_lt (h ho)

/-- A turned entity gives up its tiles and takes those it covers then; it is the only one in
question on either. -/
theorem indexed_turn {direction : Nat} (h : Indexed blueprint) :
    Indexed (blueprint.turn id direction).1 := by
  cases he : blueprint.entity? id with
  | none =>
    simp only [turn, he]
    exact h
  | some entity =>
    simp only [turn, he]
    intro place other hf
    have hs : ∀ new, (blueprint.entities.setIfInBounds id new).size = blueprint.size := by
      intro new
      rw [Array.size_setIfInBounds, size]
    rw [size, hs]
    rcases find?_occupy hf with rfl | ho
    · exact entity?_eq_some_iff.mp ⟨entity, he⟩
    · exact h (find?_release ho)

theorem indexed_configure {condition : Condition} (h : Indexed blueprint) :
    Indexed (blueprint.configure id condition) := by
  cases he : blueprint.entity? id with
  | none =>
    simp only [configure, he]
    exact h
  | some entity =>
    simp only [configure, he]
    intro place other hf
    rw [size, Array.size_setIfInBounds]
    exact h hf

theorem indexed_connect {fromSide toSide : End} {toId : EntityId} (h : Indexed blueprint) :
    Indexed (blueprint.connect id fromSide toId toSide color).2 := by
  intro place other hf
  rw [find?, entities_connect.2] at hf
  rw [size, entities_connect.1]
  exact h hf

end CircuitScript.Blueprint
