import CircuitScript.Proofs.RouteStrokes
import Mathlib.Data.List.Forall2
/-!
What is added to a draft. An inventory lists new entities in the order of their numbers, relays and
combinators alike, the combinators with what they were placed to read, and what happened to the
slots of gates. All else that stands is left alone.
-/
namespace CircuitScript

/-- The entity is a relay, or the combinator for a payload. -/
def Entity.Bears (entity : Entity) : Option Condition → Prop
  | none => entity.kind = .relay ∧ entity.condition = none
  | some condition => entity.kind = condition.kind ∧ entity.condition = some condition

namespace Blueprint

variable {before after : Blueprint}

/-- The combinators in the order of their creation. -/
def combinators (blueprint : Blueprint) : List EntityId :=
  (blueprint.entities.toList.filter (·.kind ≠ .relay)).map (·.id)

/-- A new entity comes last, and counts unless it is a relay. -/
theorem combinators_push {new : Entity} (h : after.entities = before.entities.push new) :
    after.combinators = before.combinators ++ if new.kind = .relay then [] else [new.id] := by
  simp only [combinators, h, Array.toList_push, List.filter_append, List.map_append]
  split <;> simp_all

theorem combinators_congr (h : after.entities = before.entities) :
    after.combinators = before.combinators := by
  rw [combinators, combinators, h]

end Blueprint

namespace Layout

/-- The slots that some feeds name. -/
def Feed.slots (feeds : List Feed) : List Nat :=
  feeds.filterMap fun
    | entity _ => none
    | request slot => some slot

/-- The entity, once for each time that the feeds name the gate in a slot. -/
def gathered (slot : Nat) (feeds : List Feed) (id : EntityId) : List EntityId :=
  (feeds.filter (· = .request slot)).map fun _ => id

/-- The combinators that read the gate in a slot. -/
def collected (slot : Nat) (placed : List Placement) : List EntityId :=
  placed.flatMap fun placement => gathered slot placement.feeds placement.id

variable {draft before after later : Draft} {frame : Frame} {condition : Condition}
  {feeds : List Feed} {slots n : Nat} {id : EntityId} {allowed : Position → Prop}

theorem gathered_append (slot : Nat) (first second : List Feed) (id : EntityId) :
    gathered slot (first ++ second) id = gathered slot first id ++ gathered slot second id := by
  rw [gathered, List.filter_append, List.map_append]
  rfl

theorem collected_append (slot : Nat) (first second : List Placement) :
    collected slot (first ++ second) = collected slot first ++ collected slot second :=
  List.flatMap_append

/-- For each entity its payload, or none for a relay; the combinators with their feeds; and what
happens to the slots. -/
@[ext] structure Inventory where
  items : List (Option Condition)
  placed : List Placement
  events : List SlotEvent

namespace Inventory

instance : Append Inventory where
  append first second :=
    ⟨first.items ++ second.items, first.placed ++ second.placed, first.events ++ second.events⟩

/-- The number of entities. -/
def size (inventory : Inventory) : Nat := inventory.items.length

def relays (n : Nat) : Inventory := ⟨List.replicate n none, [], []⟩

/-- A combinator that reads some feeds while some slots are open, and the relays of its routes. -/
def single (slots : Nat) (condition : Condition) (feeds : List Feed) (id : EntityId) (n : Nat) :
    Inventory :=
  ⟨some condition :: List.replicate n none, [⟨id, feeds⟩], (Feed.slots feeds).map (.asked · id slots)⟩

/-- A slot is closed. -/
def closing (slot : Nat) (readers : List EntityId) : Inventory := ⟨[], [], [.closed slot readers]⟩

variable {first second third : Inventory}

@[simp] theorem items_append : (first ++ second).items = first.items ++ second.items := rfl

@[simp] theorem placed_append : (first ++ second).placed = first.placed ++ second.placed := rfl

@[simp] theorem events_append : (first ++ second).events = first.events ++ second.events := rfl

@[simp] theorem size_append : (first ++ second).size = first.size + second.size := List.length_append

@[simp] theorem size_relays : (relays n).size = n := List.length_replicate

@[simp] theorem size_closing {slot : Nat} {readers : List EntityId} : (closing slot readers).size = 0 :=
  rfl

@[simp] theorem size_single : (single slots condition feeds id n).size = n + 1 := by
  simp [single, size]

theorem append_assoc : first ++ second ++ third = first ++ (second ++ third) :=
  Inventory.ext (List.append_assoc _ _ _) (List.append_assoc _ _ _) (List.append_assoc _ _ _)

@[simp] theorem append_relays_zero : first ++ relays 0 = first :=
  Inventory.ext (List.append_nil _) (List.append_nil _) (List.append_nil _)

@[simp] theorem relays_zero_append : relays 0 ++ first = first := rfl

/-- Relays have nothing to tell them apart but their number. -/
theorem relays_append (m n : Nat) : relays m ++ relays n = relays (m + n) :=
  Inventory.ext List.replicate_append_replicate rfl rfl

/-- Relays that are put down after a combinator count with those of its own wires. -/
theorem single_append (m n : Nat) :
    single slots condition feeds id m ++ relays n = single slots condition feeds id (m + n) := by
  refine Inventory.ext ?_ (List.append_nil _) (List.append_nil _)
  exact congrArg (some condition :: ·) List.replicate_append_replicate

end Inventory

/-- Each of the entities is one of the items. -/
theorem exists_bears {entities : List Entity} {items : List (Option Condition)}
    (h : List.Forall₂ Entity.Bears entities items) :
    ∀ entity ∈ entities, ∃ item ∈ items, entity.Bears item := by
  induction h with
  | nil => simp
  | cons hb _ ih =>
    refine List.forall_mem_cons.mpr ⟨⟨_, List.mem_cons_self, hb⟩, fun entity he => ?_⟩
    obtain ⟨item, hi, hbears⟩ := ih entity he
    exact ⟨item, List.mem_cons_of_mem _ hi, hbears⟩

variable {inventory inventory' : Inventory} {readers readers' : Nat → List EntityId}

/-- A draft has what an inventory lists in addition to what it had before, and the gates in the open
slots have some more readers; else only wires and routes were added. -/
structure Adds (before after : Draft) (inventory : Inventory) (readers : Nat → List EntityId) :
    Prop where
  extend : before.blueprint.Extends after.blueprint
  entities : ∃ new, after.blueprint.entities.toList = before.blueprint.entities.toList ++ new ∧
    List.Forall₂ Entity.Bears new inventory.items
  placements : after.placements = inventory.placed.reverse ++ before.placements
  combinators : after.blueprint.combinators =
    before.blueprint.combinators ++ inventory.placed.map (·.id)
  events : after.slotEvents = inventory.events.reverse ++ before.slotEvents
  requests : ∀ slot, after.requests[slot]? = before.requests[slot]?.map (· ++ readers slot)

/-- Where nobody is collected, the requests stay as they are. -/
theorem requests_map_nil (requests : Array (List EntityId)) (slot : Nat) :
    requests[slot]? = requests[slot]?.map (· ++ []) := by
  cases requests[slot]? <;> simp

/-- What changes neither blueprint, placements, slots nor requests adds nothing. -/
theorem Adds.of_same (hb : after.blueprint = before.blueprint)
    (hp : after.placements = before.placements) (he : after.slotEvents = before.slotEvents)
    (hr : after.requests = before.requests) : Adds before after (.relays 0) fun _ => [] := by
  refine ⟨hb ▸ .refl _, ⟨[], by simp [hb], .nil⟩, hp, ?_, he, fun slot => ?_⟩
  · rw [hb]
    exact (List.append_nil _).symm
  · rw [hr]
    exact requests_map_nil _ _

theorem Adds.refl (draft : Draft) : Adds draft draft (.relays 0) fun _ => [] :=
  .of_same rfl rfl rfl rfl

/-- Of two additions in a row, the second tells of the readers that it finds beyond those of the
first. -/
theorem Adds.trans (h : Adds before after inventory readers)
    (h' : Adds after later inventory' readers') :
    Adds before later (inventory ++ inventory') fun slot => readers slot ++ readers' slot where
  extend := h.extend.trans h'.extend
  entities := by
    obtain ⟨new, he, hn⟩ := h.entities
    obtain ⟨new', he', hn'⟩ := h'.entities
    exact ⟨new ++ new', by rw [he', he, List.append_assoc], List.rel_append hn hn'⟩
  placements := by
    rw [h'.placements, h.placements, Inventory.placed_append, List.reverse_append,
      List.append_assoc]
  combinators := by
    rw [h'.combinators, h.combinators, Inventory.placed_append, List.map_append,
      List.append_assoc]
  events := by
    rw [h'.events, h.events, Inventory.events_append, List.reverse_append, List.append_assoc]
  requests := by
    intro slot
    rw [h'.requests, h.requests, Option.map_map]
    congr 1
    funext readers
    exact List.append_assoc _ _ _

theorem Adds.congr (h : Adds before after inventory readers)
    (hr : ∀ slot, readers slot = readers' slot) : Adds before after inventory readers' :=
  (funext hr : readers = readers') ▸ h

/-- Entities are added as listed, so their number tells the numbers that come next. -/
theorem Adds.size (h : Adds before after inventory readers) :
    after.blueprint.size = before.blueprint.size + inventory.size := by
  obtain ⟨new, he, hn⟩ := h.entities
  rw [Blueprint.size, Blueprint.size, ← Array.length_toList, he, List.length_append, hn.length_eq,
    Array.length_toList]
  rfl

theorem Adds.requests_size (h : Adds before after inventory readers) :
    after.requests.size = before.requests.size := by
  have hsize : ∀ n, after.requests.size ≤ n ↔ before.requests.size ≤ n := by
    intro n
    rw [← Array.getElem?_eq_none_iff, ← Array.getElem?_eq_none_iff, h.requests,
      Option.map_eq_none_iff]
  exact Nat.le_antisymm ((hsize _).mpr (Nat.le_refl _)) ((hsize _).mp (Nat.le_refl _))

theorem relay_adds {tile : Position} :
    Adds draft ((put .relay tile).run draft).2 (.relays 1) fun _ => [] :=
  ⟨Blueprint.extends_push Blueprint.entities_create rfl,
    ⟨_, Array.toList_push, .cons ⟨rfl, rfl⟩ .nil⟩, rfl,
    Blueprint.combinators_push Blueprint.entities_create, rfl,
    fun slot => requests_map_nil draft.requests slot⟩

theorem link_adds {source target : Terminal} {color : Color} :
    Adds draft ((link source target color).run draft).2 (.relays 0) fun _ => [] := by
  have hsame : ((link source target color).run draft).2.blueprint.entities =
      draft.blueprint.entities := Blueprint.entities_connect.1
  refine ⟨Blueprint.extends_connect, ⟨[], by simp [hsame], .nil⟩, rfl, ?_, rfl,
    fun slot => requests_map_nil draft.requests slot⟩
  exact (Blueprint.combinators_congr hsame).trans (List.append_nil _).symm

/-- A route puts down relays and nothing else. -/
theorem strokes_adds (h : Strokes allowed before after) :
    ∃ n, Adds before after (.relays n) fun _ => [] := by
  induction h with
  | refl => exact ⟨0, .refl before⟩
  | tail _ hs ih =>
    obtain ⟨n, hn⟩ := ih
    cases hs with
    | relay ht hf => exact ⟨n + 1, Inventory.relays_append n 1 ▸ hn.trans relay_adds⟩
    | link color ha hb => exact ⟨n, Inventory.relays_append n 0 ▸ hn.trans link_adds⟩
    | note poles routes =>
      exact ⟨n, hn.extend, hn.entities, hn.placements, hn.combinators, hn.events, hn.requests⟩

/-- A new reader of a gate. -/
theorem request_adds {slot id : Nat} :
    Adds draft ((request slot id).run draft).2 ⟨[], [], [.asked slot id draft.requests.size]⟩
      fun other => gathered other [.request slot] id := by
  refine ⟨.refl _, ⟨[], (List.append_nil _).symm, .nil⟩, rfl, (List.append_nil _).symm, rfl,
    fun other => ?_⟩
  show (draft.requests.modify slot (· ++ [id]))[other]? = _
  rw [Array.getElem?_modify]
  by_cases h : slot = other
  · simp [gathered, h]
  · have hn : ¬ Feed.request slot = .request other := fun he => h (Feed.request.inj he)
    simp [gathered, h, hn]

/-- A new combinator, before it reads anything. -/
theorem bare_adds :
    Adds draft ((bare frame condition feeds).run draft).2
      ⟨[some condition], [⟨draft.blueprint.size, feeds⟩], []⟩ fun _ => [] := by
  have hkind : condition.kind ≠ .relay := by cases condition <;> simp [Condition.kind]
  refine ⟨Blueprint.extends_push entities_bare wires_bare,
    ⟨_, by rw [entities_bare, Array.toList_push], .cons ⟨rfl, rfl⟩ .nil⟩, rfl, ?_, rfl,
    fun slot => requests_map_nil draft.requests slot⟩
  rw [Blueprint.combinators_push entities_bare, if_neg hkind]
  rfl

end Layout

end CircuitScript
