import CircuitScript.Compile
import CircuitScript.Proofs.BlueprintRoundTrip
import CircuitScript.Proofs.Collision
import CircuitScript.Proofs.Payload
import Mathlib.Data.Int.Interval
/-!
What comes of a text. Every program that is read compiles: all its payloads can be described, and
its wires end at entities that exist. As long as the coordinates fit a description, the blueprint
string gives the layout back.
-/
namespace CircuitScript

theorem Position.add_right_cancel {a b shift : Position} (h : a + shift = b + shift) : a = b := by
  have hx : a.x + shift.x = b.x + shift.x := congrArg Position.x h
  have hy : a.y + shift.y = b.y + shift.y := congrArg Position.y h
  obtain ⟨x, y⟩ := a
  obtain ⟨x', y'⟩ := b
  dsimp only at hx hy
  rw [show x = x' by omega, show y = y' by omega]

namespace Blueprint

variable {α β : Type} {blueprint : Blueprint} {id : EntityId} {entity : Entity}

theorem label_connect {fromSide toSide : End} {toId : EntityId} {color : Color} :
    (blueprint.connect id fromSide toId toSide color).2.label = blueprint.label := by
  unfold connect
  dsimp only
  split <;> rfl

theorem label_turn {direction : Nat} : (blueprint.turn id direction).1.label = blueprint.label := by
  unfold turn
  split <;> rfl

theorem label_configure {condition : Condition} :
    (blueprint.configure id condition).label = blueprint.label := by
  unfold configure
  split <;> rfl

theorem label_center : blueprint.center.label = blueprint.label := by
  unfold center
  split <;> rfl

/-- Centering moves all entities by the same way. -/
theorem exists_shift (blueprint : Blueprint) : ∃ shift : Position,
    blueprint.center.entities =
      blueprint.entities.map fun entity => { entity with position := entity.position + shift } := by
  unfold center
  split
  · refine ⟨.origin, (Array.map_id'' (fun entity => ?_) _).symm⟩
    obtain ⟨id, kind, position, direction, condition⟩ := entity
    show Entity.mk id kind ⟨position.x + 0, position.y + 0⟩ direction condition = _
    rw [Int.add_zero, Int.add_zero]
  · exact ⟨_, rfl⟩

theorem exists_mapM {f : α → Except Error β} {list : List α} (h : ∀ x ∈ list, ∃ y, f x = .ok y) :
    ∃ results, list.mapM f = .ok results := by
  induction list with
  | nil => exact ⟨[], rfl⟩
  | cons x rest ih =>
    obtain ⟨y, hy⟩ := h x List.mem_cons_self
    obtain ⟨results, hr⟩ := ih fun other ho => h other (List.mem_cons_of_mem x ho)
    refine ⟨y :: results, ?_⟩
    rw [List.mapM_cons, hy, hr]
    rfl

theorem exists_colorFields {links : List Link}
    (h : ∀ link ∈ links, blueprint.HasTerminal link.target) (color : Color) :
    ∃ fields, blueprint.colorFields links color = .ok fields := by
  have hpoints : ∃ points, (links.filter (·.color == color)).mapM
      (fun link => blueprint.linkJson link.target) = .ok points := by
    refine exists_mapM fun link hm => ?_
    obtain ⟨entity, he⟩ := entity?_eq_some_iff.mpr (h link (List.mem_of_mem_filter hm)).exists_entity
    rw [linkJson, he]
    exact ⟨_, rfl⟩
  obtain ⟨points, hpoints⟩ := hpoints
  rw [colorFields, hpoints]
  exact ⟨_, rfl⟩

theorem exists_sideFields {links : List Link}
    (h : ∀ link ∈ links, blueprint.HasTerminal link.target) (side : End) :
    ∃ fields, blueprint.sideFields links side = .ok fields := by
  have hown : ∀ link ∈ links.filter (·.side == side), blueprint.HasTerminal link.target :=
    fun link hm => h link (List.mem_of_mem_filter hm)
  obtain ⟨red, hred⟩ := exists_colorFields hown .red
  obtain ⟨green, hgreen⟩ := exists_colorFields hown .green
  simp only [sideFields, hred, hgreen]
  exact ⟨_, rfl⟩

/-- A blueprint is described wherever its entities are, and however many there are. -/
theorem exists_describe (hcoherent : Coherent blueprint)
    (h : ∀ entity ∈ blueprint.entities, ∀ condition, entity.condition = some condition →
      condition.Exchangeable) : ∃ text, blueprint.describe = .ok text := by
  have hentities : ∃ entities,
      blueprint.entities.toList.mapM blueprint.entityJson = .ok entities := by
    refine exists_mapM fun entity hm => ?_
    have hlinks : ∀ link ∈ blueprint.linksOf entity.id, blueprint.HasTerminal link.target :=
      fun _ hlink => hasTerminal_of_mem_linksOf hcoherent hlink
    obtain ⟨input, hinput⟩ := exists_sideFields hlinks .input
    obtain ⟨output, houtput⟩ := exists_sideFields hlinks .output
    obtain ⟨control, hcontrol, -, -⟩ := reads_control (h entity (Array.mem_toList_iff.mp hm))
    exact ⟨_, entityJson_eq hinput houtput hcontrol⟩
  obtain ⟨entities, hentities⟩ := hentities
  simp only [describe, toJson, hentities]
  exact ⟨_, rfl⟩

theorem encode_eq {text : String} (h : blueprint.describe = .ok text) :
    blueprint.encode = .ok (packDescription text) := by
  rw [encode, h]
  rfl

theorem decode_packDescription {text : String} :
    decode (packDescription text) = ofDescription text := by
  rw [decode, unpackDescription_packDescription]
  rfl

/-- The first corner of an entity and the one opposite to it have coordinates of 32 bits. -/
def InRange (blueprint : Blueprint) : Prop :=
  ∀ entity ∈ blueprint.entities, entity.position.Fits ∧
    (entity.position + ⟨(entity.kind.footprint entity.direction).1,
      (entity.kind.footprint entity.direction).2⟩).Fits

instance (position : Position) : Decidable position.Fits :=
  decidable_of_iff ((-2 ^ 31 ≤ position.x ∧ position.x < 2 ^ 31) ∧
    -2 ^ 31 ≤ position.y ∧ position.y < 2 ^ 31) ⟨fun h => ⟨h.1, h.2⟩, fun h => ⟨h.x, h.y⟩⟩

instance (blueprint : Blueprint) : Decidable blueprint.InRange :=
  inferInstanceAs (Decidable (∀ entity ∈ blueprint.entities, _))

/-- No two entities stand on one tile, so a square has at least as many tiles as entities. -/
theorem size_le_area {low high : Int}
    (h : ∀ entity ∈ blueprint.entities, (low ≤ entity.position.x ∧ entity.position.x < high) ∧
      low ≤ entity.position.y ∧ entity.position.y < high)
    (hi : ∀ {id other entity entity'}, blueprint.entity? id = some entity →
      blueprint.entity? other = some entity' → entity.position = entity'.position → id = other) :
    blueprint.size ≤ (high - low).toNat * (high - low).toNat := by
  have hle : (Finset.univ : Finset (Fin blueprint.size)).card ≤
      (Finset.Ico low high ×ˢ Finset.Ico low high).card := by
    refine Finset.card_le_card_of_injOn (fun i =>
      (blueprint.entities[i].position.x, blueprint.entities[i].position.y)) ?_ ?_
    · intro i _
      obtain ⟨hx, hy⟩ := h blueprint.entities[i] (Array.getElem_mem i.isLt)
      exact Finset.mem_coe.mpr
        (Finset.mem_product.mpr ⟨Finset.mem_Ico.mpr hx, Finset.mem_Ico.mpr hy⟩)
    · intro i _ j _ heq
      obtain ⟨hx, hy⟩ := Prod.mk.inj heq
      refine Fin.ext (hi (Array.getElem?_eq_getElem i.isLt) (Array.getElem?_eq_getElem j.isLt) ?_)
      exact (Position.mk.injEq ..).mpr ⟨hx, hy⟩
  rwa [Finset.card_univ, Fintype.card_fin, Finset.card_product, Int.card_Ico] at hle

/-- The entities within range can be numbered with 64 bits. -/
theorem size_lt_of_inRange (h : InRange blueprint)
    (hi : ∀ {id other entity entity'}, blueprint.entity? id = some entity →
      blueprint.entity? other = some entity' → entity.position = entity'.position → id = other) :
    blueprint.size < 2 ^ 64 := by
  have hle : blueprint.size ≤
      (2 ^ 31 - 1 - -2 ^ 31 : Int).toNat * (2 ^ 31 - 1 - -2 ^ 31 : Int).toNat := by
    -- An entity ends within range too, so none starts in the last row or column, and one tile at
    -- least is left over.
    refine size_le_area (fun entity hm => ?_) hi
    obtain ⟨⟨hx, hy⟩, hx', hy'⟩ := h entity hm
    obtain ⟨hwidth, hheight⟩ := entity.kind.one_le_footprint entity.direction
    rw [Position.add_x] at hx'
    rw [Position.add_y] at hy'
    dsimp only at hx' hy'
    omega
  exact Nat.lt_of_le_of_lt hle (by decide)

end Blueprint

namespace Layout

variable {before after : Draft} {allowed : Position → Prop}

/-- What is built can be described but for its payloads, and has no label yet. -/
structure Sturdy (draft : Draft) : Prop where
  sound : draft.blueprint.Sound
  coherent : draft.blueprint.Coherent
  label : draft.blueprint.label = none

theorem stroke_sturdy (h : Stroke allowed before after) (hs : Sturdy before) : Sturdy after := by
  refine ⟨stroke_sound h hs.sound, stroke_coherent h hs.coherent, ?_⟩
  rw [← hs.label]
  cases h with
  | relay => rfl
  | link => exact Blueprint.label_connect
  | note => rfl

theorem act_sturdy (h : Act before after) (hg : before.Grounded) (hs : Sturdy before) :
    Sturdy after := by
  have hsound := act_sound h hg hs.sound
  cases h with
  | relay tile => exact ⟨hsound, Blueprint.coherent_create hs.coherent _ _, hs.label⟩
  | stand frame condition feeds =>
    refine ⟨hsound, ?_, ?_⟩
    · rw [run_bare]
      exact Blueprint.coherent_configure (Blueprint.coherent_turn
        (Blueprint.coherent_create hs.coherent _ _) _ _) _ _
    · rw [run_bare]
      exact Blueprint.label_configure.trans (Blueprint.label_turn.trans hs.label)
  | route color hf ha hb =>
    exact strokes_preserve stroke_sturdy (route_strokes_anywhere hg hs.sound hf ha hb color) hs
  | note hb hr hg' => exact ⟨hsound, hb ▸ hs.coherent, hb ▸ hs.label⟩

theorem sturdy_draft (script : Script) : Sturdy script.draft.2 :=
  draft_induction ⟨sound_empty, Blueprint.coherent_empty, rfl⟩ act_sturdy script

end Layout

variable {source : String} {script : Script} {label : Option String}

theorem Lowering.finish_spec {lowering : Lowering} (hl : lowering.blueprint.label = none) :
    (lowering.finish label).entities = lowering.blueprint.center.entities ∧
    (lowering.finish label).wires = lowering.blueprint.center.wires ∧
    (lowering.finish label).label = label := by
  cases label with
  | none => exact ⟨rfl, rfl, Blueprint.label_center.trans hl⟩
  | some text => exact ⟨rfl, rfl, rfl⟩

theorem coherent_finish (script : Script) : (script.lower.finish label).Coherent := by
  have hcentered := Blueprint.coherent_center (Layout.sturdy_draft script).coherent
  cases label with
  | none => exact hcentered
  | some text => exact Blueprint.coherent_withLabel hcentered text

/-- The payloads of a program that was read can be described. -/
theorem exchangeable_condition (h : Script.parse source = .ok script) :
    ∀ entity ∈ script.lower.blueprint.center.entities, ∀ condition,
      entity.condition = some condition → condition.Exchangeable := by
  obtain ⟨shift, hshift⟩ := Blueprint.exists_shift script.lower.blueprint
  intro entity hm condition hc
  rw [hshift] at hm
  obtain ⟨placed, hp, rfl⟩ := Array.mem_map.mp hm
  obtain ⟨node, hn, hm⟩ := Layout.mem_bodyPayloads.mp (Layout.mem_payloads_of_entity hp hc)
  exact Layout.describable_of_shaped (Script.shaped_of_parse nameRule_dashless h node hn) _ hm

/-- The entities of a program that was read can be numbered. -/
theorem size_center_lt (h : Script.parse source = .ok script)
    (hr : script.lower.blueprint.center.InRange) : script.lower.blueprint.center.size < 2 ^ 64 := by
  obtain ⟨shift, hshift⟩ := Blueprint.exists_shift script.lower.blueprint
  have htidy : script.lower.blueprint.Tidy := (Layout.orderly_draft h).tidy
  refine Blueprint.size_lt_of_inRange hr fun {id other entity entity'} he ho hp => ?_
  rw [Blueprint.entity?, hshift, Array.getElem?_map] at he ho
  obtain ⟨first, hf, rfl⟩ := Option.map_eq_some_iff.mp he
  obtain ⟨second, hs, rfl⟩ := Option.map_eq_some_iff.mp ho
  have hsame : first.position = second.position := Position.add_right_cancel hp
  refine htidy.disjoint hf hs first.position_mem_tiles ?_
  rw [hsame]
  exact second.position_mem_tiles

theorem compile_eq (source : String) (label : Option String) :
    compile source label = Script.parse source >>= fun script =>
      (script.lower.finish label).encode := by
  rw [compile, Compilation.ofSource]
  cases Script.parse source <;> rfl

/-- A text compiles exactly if it is read, and fails only with the error of reading it. The blueprint
string that it compiles to is read as the layout of the program, around the origin and with the
label, if the coordinates have 32 bits there. -/
theorem compile_outcome (source : String) (label : Option String) :
    (∀ error, compile source label = .error error ↔ Script.parse source = .error error) ∧
    ∀ script, Script.parse source = .ok script → ∃ text, compile source label = .ok text ∧
      (script.lower.blueprint.center.InRange → ∃ decoded events,
        Blueprint.decode text = .ok (decoded, events) ∧
        decoded.entities = script.lower.blueprint.center.entities ∧
        decoded.wires = script.lower.blueprint.center.wires ∧ decoded.label = label) := by
  rw [compile_eq]
  cases hparse : Script.parse source with
  | error error =>
    refine ⟨fun other => ⟨?_, ?_⟩, nofun⟩
    · rintro ⟨⟩
      rfl
    · rintro ⟨⟩
      rfl
  | ok script =>
    obtain ⟨hentities, hwires, hlabel⟩ := @Lowering.finish_spec label script.lower
      (Layout.sturdy_draft script).label
    have hcoherent := @coherent_finish label script
    have hconditions := exchangeable_condition hparse
    rw [← hentities] at hconditions
    obtain ⟨text, htext⟩ := Blueprint.exists_describe hcoherent hconditions
    have hencode := Blueprint.encode_eq htext
    refine ⟨fun error => ?_, ?_⟩
    · show (script.lower.finish label).encode = .error error ↔ _
      rw [hencode]
      exact ⟨nofun, nofun⟩
    · rintro _ ⟨⟩
      refine ⟨packDescription text, hencode, fun hr => ?_⟩
      have hexchangeable : (script.lower.finish label).Exchangeable := by
        refine ⟨?_, fun entity hm => ⟨?_, hconditions entity hm⟩⟩
        · rw [Blueprint.size, hentities]
          exact size_center_lt hparse hr
        · rw [hentities] at hm
          exact (hr entity hm).1
      -- The description of before is the one that is read: there is only one.
      obtain ⟨_, decoded, events, hdescribe, hread, he, hw, hl⟩ :=
        Blueprint.ofDescription_describe hcoherent hexchangeable
      cases htext.symm.trans hdescribe
      refine ⟨decoded, events, ?_, he.trans hentities, hw.trans hwires, hl.trans hlabel⟩
      rw [Blueprint.decode_packDescription]
      exact hread

/-- A condition that has a constant first, and one that is turned around. -/
def guardedSource : String := "if 3 < a || !b \x7b c = a * 2 \x7d"

theorem guardedSource_inRange : ∃ script, Script.parse guardedSource = .ok script ∧
    script.lower.blueprint.center.InRange ∧ 0 < script.lower.blueprint.center.size := by
  refine Script.exists_parse ?_
  decide +kernel

theorem compile_outcome_guarded :
    ∃ script, Script.parse guardedSource = .ok script ∧
      script.lower.blueprint.center.InRange ∧ 0 < script.lower.blueprint.center.size ∧
      ∃ text decoded events, compile guardedSource (some "guard") = .ok text ∧
        Blueprint.decode text = .ok (decoded, events) ∧
        decoded.entities = script.lower.blueprint.center.entities ∧
        decoded.wires = script.lower.blueprint.center.wires ∧ decoded.label = some "guard" := by
  obtain ⟨script, hparse, hrange, hsize⟩ := guardedSource_inRange
  obtain ⟨text, hcompile, hdecode⟩ := (compile_outcome guardedSource (some "guard")).2 script hparse
  obtain ⟨decoded, events, hread, hsame⟩ := hdecode hrange
  exact ⟨script, hparse, hrange, hsize, text, decoded, events, hcompile, hread, hsame⟩

end CircuitScript
