import CircuitScript.Proofs.Wiring
import Mathlib.Data.List.Perm.Basic
/-!
Blueprints as the operations build them: entities are numbered by their order, directions stay
within a full turn, and the wires are listed once each between terminals that exist.
-/
namespace CircuitScript

theorem End.rank_injective {a b : End} (h : a.rank = b.rank) : a = b := by
  cases a <;> cases b <;> simp_all [End.rank]

theorem Color.rank_injective {a b : Color} (h : a.rank = b.rank) : a = b := by
  cases a <;> cases b <;> simp_all [Color.rank]

theorem Terminal.key_injective {a b : Terminal} (h : a.key = b.key) : a = b := by
  obtain ⟨entity, side⟩ := a
  obtain ⟨entity', side'⟩ := b
  simp only [Terminal.key, List.cons.injEq, and_true] at h
  rw [h.1, End.rank_injective h.2]

theorem Wire.key_injective {a b : Wire} (h : a.key = b.key) : a = b := by
  obtain ⟨first, second, color⟩ := a
  obtain ⟨first', second', color'⟩ := b
  simp only [Wire.key, List.append_assoc] at h
  obtain ⟨hfirst, hrest⟩ := List.append_inj h rfl
  obtain ⟨hsecond, hcolor⟩ := List.append_inj hrest rfl
  rw [Terminal.key_injective hfirst, Terminal.key_injective hsecond,
    Color.rank_injective (List.cons.inj hcolor).1]

/-- Of two keys that differ, one goes first. -/
theorem lt_or_lt_of_ne {a b : List Nat} (h : a ≠ b) : a < b ∨ b < a := by
  by_contra hn
  rw [not_or, List.not_lt, List.not_lt] at hn
  exact h (List.le_antisymm hn.2 hn.1)

/-- The wire between two terminals leads from the smaller one. -/
theorem Wire.between_eq {a b : Terminal} {color : Color} (h : a.key < b.key) :
    Wire.between a b color = ⟨a, b, color⟩ ∧ Wire.between b a color = ⟨a, b, color⟩ :=
  ⟨if_pos h, if_neg (List.lt_asymm h)⟩

namespace Blueprint

variable {blueprint after : Blueprint} {id : EntityId} {entity : Entity} {wire : Wire}
  {wires : List Wire}

/-- The wires stand in ascending order, each once. -/
def Ascending (wires : List Wire) : Prop := wires.Pairwise fun a b => a.key < b.key

theorem ascending_placeWire (h : Ascending wires) : Ascending (placeWire wire wires) := by
  induction wires with
  | nil => exact List.pairwise_singleton _ _
  | cons other rest ih =>
    obtain ⟨hother, hrest⟩ := List.pairwise_cons.1 h
    unfold placeWire
    split
    · exact h
    · next hne =>
      split
      · next hlt =>
        refine List.pairwise_cons.2 ⟨fun later hlater => ?_, h⟩
        rcases List.mem_cons.1 hlater with rfl | hlater
        · exact hlt
        · exact List.lt_trans hlt (hother later hlater)
      · next hlt =>
        refine List.pairwise_cons.2 ⟨fun later hlater => ?_, ih hrest⟩
        rcases mem_placeWire.1 hlater with rfl | hlater
        · exact (lt_or_lt_of_ne fun heq => hne (Wire.key_injective heq)).resolve_left hlt
        · exact hother later hlater

theorem Ascending.nodup (h : Ascending wires) : wires.Nodup := by
  refine List.Pairwise.imp ?_ h
  rintro a b hlt rfl
  exact List.lt_irrefl _ hlt

/-- The order leaves one way to list a set of wires. -/
theorem Ascending.ext {wires' : List Wire} (h : Ascending wires) (h' : Ascending wires')
    (hmem : ∀ wire, wire ∈ wires ↔ wire ∈ wires') : wires = wires' := by
  have hperm : wires.Perm wires' := (List.perm_ext_iff_of_nodup h.nodup h'.nodup).2 hmem
  refine hperm.eq_of_pairwise (fun a b _ _ hab hba => ?_) h h'
  exact absurd hba (List.lt_asymm hab)

/-- A terminal that wires end at. -/
structure HasTerminal (blueprint : Blueprint) (terminal : Terminal) : Prop where
  exists_entity : terminal.entity < blueprint.size
  vertex : blueprint.vertex terminal = terminal

/-- What every blueprint that was built satisfies. -/
structure Coherent (blueprint : Blueprint) : Prop where
  id : ∀ {id entity}, blueprint.entity? id = some entity → entity.id = id
  direction : ∀ {id entity}, blueprint.entity? id = some entity → entity.direction < 8
  ascending : Ascending blueprint.wires
  wire : ∀ {wire}, wire ∈ blueprint.wires →
    blueprint.HasTerminal wire.a ∧ blueprint.HasTerminal wire.b ∧ wire.a.key < wire.b.key

/-- Entities may change and come in addition as long as a relay stays one. -/
theorem HasTerminal.mono {terminal : Terminal} (h : blueprint.HasTerminal terminal)
    (hsize : blueprint.size ≤ after.size)
    (hrelay : ∀ id < blueprint.size, after.isRelay id = blueprint.isRelay id) :
    after.HasTerminal terminal where
  exists_entity := Nat.lt_of_lt_of_le h.exists_entity hsize
  vertex := by
    have hvertex := h.vertex
    simp only [Blueprint.vertex, Blueprint.terminal, hrelay _ h.exists_entity] at hvertex ⊢
    exact hvertex

theorem Coherent.of_entities (h : Coherent blueprint) (hwires : after.wires = blueprint.wires)
    (hsize : blueprint.size ≤ after.size)
    (hrelay : ∀ id < blueprint.size, after.isRelay id = blueprint.isRelay id)
    (hentity : ∀ {id entity}, after.entity? id = some entity →
      entity.id = id ∧ entity.direction < 8) : Coherent after where
  id := fun he => (hentity he).1
  direction := fun he => (hentity he).2
  ascending := hwires ▸ h.ascending
  wire := by
    intro wire hw
    obtain ⟨ha, hb, hlt⟩ := h.wire (hwires ▸ hw)
    exact ⟨ha.mono hsize hrelay, hb.mono hsize hrelay, hlt⟩

theorem coherent_empty : Coherent .empty where
  id := by simp [entity?, empty]
  direction := by simp [entity?, empty]
  ascending := List.Pairwise.nil
  wire := by simp [empty]

theorem coherent_create (h : Coherent blueprint) (kind : Kind) (position : Position) :
    Coherent (blueprint.create kind position).2.1 := by
  refine h.of_entities rfl (by rw [size_create]; omega) (fun _ hid => grows_create.isRelay hid) ?_
  intro id entity he
  rw [entity?, entities_create, Array.getElem?_push] at he
  split at he
  · next hid =>
    cases he
    exact ⟨hid.symm, Nat.succ_pos 7⟩
  · exact ⟨h.id he, h.direction he⟩

/-- Setting the direction or the payload of one entity. -/
theorem coherent_set (h : Coherent blueprint) (he : blueprint.entity? id = some entity)
    {new : Entity} (ha : after.entities = blueprint.entities.setIfInBounds id new)
    (hw : after.wires = blueprint.wires) (hk : new.kind = entity.kind)
    (hp : new.position = entity.position) (hid : new.id = entity.id)
    (hd : new.direction < 8) : Coherent after := by
  refine h.of_entities hw (by simp [size, ha])
    (fun _ hlt => (grows_set he ha hw hk hp).isRelay hlt) ?_
  intro other old ho
  rw [entity?, ha, entity?_setIfInBounds he] at ho
  split at ho
  · next heq =>
    cases ho
    exact ⟨by rw [hid, h.id he, heq], hd⟩
  · exact ⟨h.id ho, h.direction ho⟩

theorem coherent_turn (h : Coherent blueprint) (id : EntityId) (direction : Nat) :
    Coherent (blueprint.turn id direction).1 := by
  cases he : blueprint.entity? id with
  | none =>
    simp only [turn, he]
    exact h
  | some entity =>
    simp only [turn, he]
    exact coherent_set h he rfl rfl rfl rfl rfl (Nat.mod_lt _ (by decide))

theorem coherent_configure (h : Coherent blueprint) (id : EntityId) (condition : Condition) :
    Coherent (blueprint.configure id condition) := by
  cases he : blueprint.entity? id with
  | none =>
    simp only [configure, he]
    exact h
  | some entity =>
    simp only [configure, he]
    have hd := h.direction he
    exact coherent_set h he rfl rfl rfl rfl rfl hd

theorem setIfInBounds_push {α : Type} (xs : Array α) (a b : α) :
    (xs.push a).setIfInBounds xs.size b = xs.push b := by
  apply Array.ext'
  simp

/-- An entity that was just created is turned and configured in place. -/
theorem entities_turn_create {kind : Kind} {position : Position} {direction : Nat} :
    ((blueprint.create kind position).2.1.turn blueprint.size direction).1.entities =
      blueprint.entities.push ⟨blueprint.size, kind, position, direction % 8, none⟩ := by
  rw [turn, entity?_create]
  dsimp only
  rw [entities_create, size, setIfInBounds_push]

theorem entities_configure_push {entities : Array Entity} {new : Entity} {condition : Condition}
    (h : blueprint.entities = entities.push new) :
    (blueprint.configure entities.size condition).entities =
      entities.push { new with condition := some condition } := by
  have hentity : blueprint.entity? entities.size = some new := by
    rw [entity?, h, Array.getElem?_push_size]
  rw [configure, hentity]
  dsimp only
  rw [h, setIfInBounds_push]

/-- Each end of a wire that may be drawn is a terminal, and relays have their one. -/
theorem hasTerminal_terminal (h : id < blueprint.size) (side : End) :
    blueprint.HasTerminal (blueprint.terminal id side) where
  exists_entity := h
  vertex := by
    simp only [Blueprint.vertex, Blueprint.terminal]
    split <;> rfl

theorem ascending_connect (h : Ascending blueprint.wires) {fromId toId : EntityId}
    {fromSide toSide : End} {color : Color} :
    Ascending (blueprint.connect fromId fromSide toId toSide color).2.wires := by
  unfold connect
  dsimp only
  split
  · exact h
  · exact ascending_placeWire h

theorem coherent_connect (h : Coherent blueprint) {fromId toId : EntityId}
    (hfrom : fromId < blueprint.size) (hto : toId < blueprint.size) (fromSide toSide : End)
    (color : Color) : Coherent (blueprint.connect fromId fromSide toId toSide color).2 := by
  have hentities : (blueprint.connect fromId fromSide toId toSide color).2.entities =
      blueprint.entities := entities_connect.1
  have hterminal : ∀ {terminal}, blueprint.HasTerminal terminal →
      (blueprint.connect fromId fromSide toId toSide color).2.HasTerminal terminal := by
    intro terminal hterminal
    refine hterminal.mono (Nat.le_of_eq (by rw [size, size, hentities])) fun id _ => ?_
    rw [isRelay, isRelay, entity?, entity?, hentities]
  refine ⟨?_, ?_, ?_, ?_⟩
  · intro id entity he
    rw [entity?, hentities] at he
    exact h.id he
  · intro id entity he
    rw [entity?, hentities] at he
    exact h.direction he
  · exact ascending_connect h.ascending
  · intro wire hw
    rcases mem_wires_connect.1 hw with hw | ⟨hne, rfl⟩
    · obtain ⟨ha, hb, hlt⟩ := h.wire hw
      exact ⟨hterminal ha, hterminal hb, hlt⟩
    · have hfirst := hterminal (hasTerminal_terminal hfrom fromSide)
      have hsecond := hterminal (hasTerminal_terminal hto toSide)
      rcases lt_or_lt_of_ne fun heq => hne (Terminal.key_injective heq) with hlt | hlt
      · rw [(Wire.between_eq hlt).1]
        exact ⟨hfirst, hsecond, hlt⟩
      · rw [(Wire.between_eq hlt).2]
        exact ⟨hsecond, hfirst, hlt⟩

theorem coherent_withLabel (h : Coherent blueprint) (label : String) :
    Coherent (blueprint.withLabel label) :=
  h.of_entities rfl (Nat.le_refl _) (fun _ _ => rfl) fun he => ⟨h.id he, h.direction he⟩

theorem coherent_center (h : Coherent blueprint) : Coherent blueprint.center := by
  unfold center
  split
  · exact h
  · refine h.of_entities rfl (by simp [size]) (fun id _ => ?_) ?_
    · simp only [isRelay, entity?, Array.getElem?_map]
      cases blueprint.entities[id]? <;> rfl
    · intro id entity he
      rw [entity?, Array.getElem?_map, Option.map_eq_some_iff] at he
      obtain ⟨old, hold, rfl⟩ := he
      have hid := h.id hold
      have hdirection := h.direction hold
      exact ⟨hid, hdirection⟩

/-- The blueprints that the operations build, with wires only between entities that exist. -/
inductive Built : Blueprint → Prop
  | empty : Built .empty
  | create {blueprint : Blueprint} (h : Built blueprint) (kind : Kind) (position : Position) :
    Built (blueprint.create kind position).2.1
  | turn {blueprint : Blueprint} (h : Built blueprint) (id : EntityId) (direction : Nat) :
    Built (blueprint.turn id direction).1
  | configure {blueprint : Blueprint} (h : Built blueprint) (id : EntityId)
    (condition : Condition) : Built (blueprint.configure id condition)
  | connect {blueprint : Blueprint} (h : Built blueprint) (fromId : EntityId) (fromSide : End)
    (toId : EntityId) (toSide : End) (color : Color) (hfrom : fromId < blueprint.size)
    (hto : toId < blueprint.size) : Built (blueprint.connect fromId fromSide toId toSide color).2
  | withLabel {blueprint : Blueprint} (h : Built blueprint) (label : String) :
    Built (blueprint.withLabel label)
  | center {blueprint : Blueprint} (h : Built blueprint) : Built blueprint.center

theorem Built.coherent (h : Built blueprint) : Coherent blueprint := by
  induction h with
  | empty => exact coherent_empty
  | create _ kind position ih => exact coherent_create ih kind position
  | turn _ id direction ih => exact coherent_turn ih id direction
  | configure _ id condition ih => exact coherent_configure ih id condition
  | connect _ fromId fromSide toId toSide color hfrom hto ih =>
    exact coherent_connect ih hfrom hto fromSide toSide color
  | withLabel _ label ih => exact coherent_withLabel ih label
  | center _ ih => exact coherent_center ih

end Blueprint

end CircuitScript
