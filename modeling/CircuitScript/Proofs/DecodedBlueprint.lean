import CircuitScript.Proofs.CompileOutcome
import CircuitScript.Proofs.JsonExtent
/-!
Decoded blueprints. However freely a description is written, the blueprint that is read from it is
canonical: written again it gives a description that is read as the same blueprint, with the same
reports, so that nothing changes any more after one round.
-/
namespace CircuitScript

theorem SignalId.dash_not_mem_toName (dashed : String) : '-' ∉ (toName dashed).toList := by
  rw [toName, String.toList_map, List.mem_map]
  rintro ⟨c, -, hc⟩
  split at hc
  · exact absurd hc (by decide)
  · next hne => exact hne hc

theorem Operand.dash_not_mem_ofRecord {signal : Option SignalId} {constant : Option Int32}
    {name : String} (h : name ∈ (ofRecord signal constant).names) : '-' ∉ name.toList := by
  cases signal with
  | none => cases h
  | some id =>
    rw [List.mem_singleton.mp h]
    exact SignalId.dash_not_mem_toName _

theorem ArithmeticRecord.exchangeable_condition {record : ArithmeticRecord} {condition : Condition}
    (h : record.condition = .ok condition) : condition.Exchangeable := by
  unfold ArithmeticRecord.condition at h
  split at h
  · cases h
    refine ⟨fun name hname => ?_, fun value op right out counting heq => Condition.noConfusion heq⟩
    simp only [Condition.names, List.mem_cons, List.mem_append] at hname
    rcases hname with rfl | hname | hname
    · exact SignalId.dash_not_mem_toName _
    · exact Operand.dash_not_mem_ofRecord hname
    · exact Operand.dash_not_mem_ofRecord hname
  · cases h

theorem DeciderRecord.exchangeable_condition {record : DeciderRecord} {condition : Condition}
    (h : record.condition = .ok condition) : condition.Exchangeable := by
  unfold DeciderRecord.condition at h
  split at h
  · cases h
    refine ⟨fun name hname => ?_, fun value op right out counting heq => ?_⟩
    · simp only [Condition.names, List.mem_cons, List.mem_append] at hname
      rcases hname with rfl | hname | hname
      · exact SignalId.dash_not_mem_toName _
      · rw [List.mem_singleton.mp hname]
        exact SignalId.dash_not_mem_toName _
      · exact Operand.dash_not_mem_ofRecord hname
    · cases heq
  · cases h

/-- Every payload that is read can be written. -/
theorem ControlRecord.exchangeable_condition {record : ControlRecord} {condition : Condition}
    (h : record.condition = .ok condition) : condition.Exchangeable := by
  unfold ControlRecord.condition at h
  split at h
  · exact ArithmeticRecord.exchangeable_condition h
  · exact DeciderRecord.exchangeable_condition h
  · cases h

/-- Wherever an entity is said to be, its first tile has coordinates of 32 bits. -/
theorem Coordinate.firstTile_fits (coordinate : Coordinate) (size : Int) :
    -2 ^ 31 ≤ coordinate.firstTile size ∧ coordinate.firstTile size < 2 ^ 31 := by
  have hclamp : ∀ n, -2 ^ 31 ≤ clamp n ∧ clamp n < 2 ^ 31 := by
    intro n
    rw [clamp]
    omega
  unfold firstTile
  split
  · exact hclamp _
  · exact hclamp _

namespace BlueprintRecord

/-- A description names no more entities than it has items and members. -/
theorem length_entities {json : Json} {record : BlueprintRecord} (h : ofJson? json = some record) :
    record.entities.length ≤ json.extent := by
  unfold ofJson? at h
  simp only [Option.bind_eq_bind, Option.bind_eq_some_iff] at h
  obtain ⟨outer, houter, h⟩ := h
  split at h
  · next content =>
    simp only [Option.bind_eq_some_iff] at h
    obtain ⟨inner, rfl, fields, hfields, h⟩ := h
    have hinner := Json.extent_fields? houter List.mem_cons_self
    split at h
    · next icons entities item label version =>
      simp only [Option.bind_eq_some_iff] at h
      obtain ⟨_, -, _, -, _, -, list, hlist, _, -, heq⟩ := h
      cases heq
      cases entities with
      | none =>
        cases hlist
        exact Nat.zero_le _
      | some field =>
        have hfield := Json.extent_fields? hfields (List.mem_cons_of_mem icons List.mem_cons_self)
        have hlength := Json.length_list? hlist
        exact Nat.le_trans hlength (Nat.le_trans hfield hinner)
    · cases h
  · cases h

end BlueprintRecord

namespace Blueprint

variable {blueprint before after : Blueprint} {events : List Event} {entity : Entity}
  {built : Blueprint × List Event} {record : EntityRecord} {assembly next : Assembly}
  {numbers : List (Nat × EntityId)}

/-- Puts down an entity as it is, behind those that stand already. -/
def putDown (built : Blueprint × List Event) (entity : Entity) : Blueprint × List Event :=
  let created := built.1.create entity.kind entity.position
  let turned := created.2.1.turn built.1.size entity.direction
  (match entity.condition with
    | some condition => turned.1.configure built.1.size condition
    | none => turned.1,
    built.2 ++ created.2.2 ++ turned.2)

theorem entities_putDown (hid : entity.id = built.1.size) (hd : entity.direction < 8) :
    (putDown built entity).1.entities = built.1.entities.push entity := by
  have hturned : ((built.1.create entity.kind entity.position).2.1.turn built.1.size
      entity.direction).1.entities =
        built.1.entities.push
          ⟨entity.id, entity.kind, entity.position, entity.direction, none⟩ := by
    rw [entities_turn_create, Nat.mod_eq_of_lt hd, hid]
  unfold putDown
  dsimp only
  split
  · next condition hcondition =>
    refine (entities_configure_push hturned).trans ?_
    rw [← hcondition]
  · next hcondition =>
    rw [hturned, ← hcondition]

theorem turn_mod (blueprint : Blueprint) (id : EntityId) (direction : Nat) :
    blueprint.turn id (direction % 8) = blueprint.turn id direction := by
  simp only [turn, Nat.mod_mod]

/-- A record adds the entity that it describes, and a description can hold that entity. -/
theorem add_eq_putDown (h : assembly.add record = .ok next) :
    ∃ entity : Entity, entity.Exchangeable ∧ entity.id = assembly.blueprint.size ∧
      entity.direction < 8 ∧
      (next.blueprint, next.events) = putDown (assembly.blueprint, assembly.events) entity ∧
      next.numbers = (record.number, assembly.blueprint.size) :: assembly.numbers := by
  unfold Assembly.add at h
  split at h
  · next kind hkind =>
    have hfits : Position.Fits ⟨record.x.firstTile (kind.footprint record.direction).1,
      record.y.firstTile (kind.footprint record.direction).2⟩ :=
      ⟨Coordinate.firstTile_fits _ _, Coordinate.firstTile_fits _ _⟩
    have hdirection : record.direction % 8 < 8 := Nat.mod_lt _ (by decide)
    cases hcontrol : record.control with
    | none =>
      rw [hcontrol] at h
      cases h
      refine ⟨⟨assembly.blueprint.size, kind, _, record.direction % 8, none⟩, ⟨hfits, by simp⟩, rfl,
        hdirection, ?_, rfl⟩
      simp only [putDown, turn_mod]
      rfl
    | some control =>
      rw [hcontrol] at h
      dsimp only at h
      cases hcondition : control.condition with
      | error error =>
        rw [hcondition] at h
        cases h
      | ok condition =>
        rw [hcondition] at h
        cases h
        refine ⟨⟨assembly.blueprint.size, kind, _, record.direction % 8, some condition⟩,
          ⟨hfits, ?_⟩, rfl, hdirection, ?_, rfl⟩
        · rintro _ ⟨⟩
          exact ControlRecord.exchangeable_condition hcondition
        · simp only [putDown, turn_mod]
          rfl
  · cases h

/-- All that has been put down is what its entities say, and a description can hold it. -/
structure Assembly.Sound (assembly : Assembly) : Prop where
  rebuilt : (assembly.blueprint, assembly.events) =
    assembly.blueprint.entities.toList.foldl putDown (.empty, [])
  coherent : Coherent assembly.blueprint
  exchangeable : ∀ entity ∈ assembly.blueprint.entities, entity.Exchangeable
  numbers : ∀ number id, assembly.numbers.lookup number = some id → id < assembly.blueprint.size
  wires : assembly.blueprint.wires = []
  label : assembly.blueprint.label = none

theorem coherent_putDown (h : Coherent built.1) : Coherent (putDown built entity).1 := by
  have hturned := coherent_turn (coherent_create h entity.kind entity.position) built.1.size
    entity.direction
  unfold putDown
  dsimp only
  split
  · exact coherent_configure hturned _ _
  · exact hturned

theorem wires_putDown : (putDown built entity).1.wires = built.1.wires := by
  unfold putDown
  dsimp only
  split
  · rw [wires_configure, wires_turn, wires_create]
  · rw [wires_turn, wires_create]

theorem label_putDown : (putDown built entity).1.label = built.1.label := by
  unfold putDown
  dsimp only
  split
  · rw [label_configure, label_turn]
    rfl
  · rw [label_turn]
    rfl

theorem Assembly.Sound.add (h : assembly.Sound) (hadd : assembly.add record = .ok next) :
    next.Sound ∧ next.blueprint.size = assembly.blueprint.size + 1 := by
  obtain ⟨entity, hexchangeable, hid, hdirection, hbuilt, hnumbers⟩ := add_eq_putDown hadd
  have hblueprint : next.blueprint = (putDown (assembly.blueprint, assembly.events) entity).1 :=
    congrArg Prod.fst hbuilt
  have hentities : next.blueprint.entities = assembly.blueprint.entities.push entity := by
    rw [hblueprint, entities_putDown hid hdirection]
  have hsize : next.blueprint.size = assembly.blueprint.size + 1 := by
    rw [size, hentities, Array.size_push]
    rfl
  refine ⟨⟨?_, ?_, ?_, ?_, ?_, ?_⟩, hsize⟩
  · rw [hbuilt, hentities, Array.toList_push, List.foldl_append, ← h.rebuilt]
    rfl
  · rw [hblueprint]
    exact coherent_putDown h.coherent
  · intro other ho
    rw [hentities] at ho
    rcases Array.mem_push.mp ho with ho | rfl
    · exact h.exchangeable other ho
    · exact hexchangeable
  · intro number id hlookup
    rw [hnumbers, List.lookup_cons] at hlookup
    rw [hsize]
    split at hlookup
    · cases hlookup
      exact Nat.lt_succ_self _
    · exact Nat.lt_succ_of_lt (h.numbers number id hlookup)
  · rw [hblueprint, wires_putDown]
    exact h.wires
  · rw [hblueprint, label_putDown]
    exact h.label

theorem Assembly.sound_empty : Assembly.Sound ⟨.empty, [], []⟩ :=
  ⟨rfl, coherent_empty, fun _ hm => absurd hm (Array.not_mem_empty _), by simp, rfl, rfl⟩

theorem Assembly.Sound.addAll {records : List EntityRecord} (h : assembly.Sound)
    (hadd : records.foldlM Assembly.add assembly = .ok next) :
    next.Sound ∧ next.blueprint.size = assembly.blueprint.size + records.length := by
  induction records generalizing assembly with
  | nil =>
    cases hadd
    exact ⟨h, rfl⟩
  | cons record rest ih =>
    rw [List.foldlM_cons] at hadd
    obtain ⟨middle, hfirst, hrest⟩ := exists_of_bind_ok hadd
    obtain ⟨hmiddle, hsize⟩ := h.add hfirst
    obtain ⟨hnext, hsize'⟩ := ih hmiddle hrest
    refine ⟨hnext, ?_⟩
    rw [hsize', hsize, List.length_cons]
    omega

/-- Only wires between terminals that exist were drawn. -/
structure OnlyWired (before after : Blueprint) : Prop where
  coherent : Coherent after
  entities : after.entities = before.entities
  grid : after.grid = before.grid
  label : after.label = before.label

theorem OnlyWired.size (h : OnlyWired before after) : after.size = before.size := by
  rw [Blueprint.size, Blueprint.size, h.entities]

/-- What one item keeps, the whole list keeps. -/
theorem onlyWired_foldlM {α : Type} {items : List α} {draw : Blueprint → α → Except Error Blueprint}
    (hdraw : ∀ {current later item}, item ∈ items → OnlyWired before current →
      draw current item = .ok later → OnlyWired before later)
    (h : OnlyWired before blueprint) (hrun : items.foldlM draw blueprint = .ok after) :
    OnlyWired before after := by
  induction items generalizing blueprint with
  | nil =>
    cases hrun
    exact h
  | cons item rest ih =>
    rw [List.foldlM_cons] at hrun
    obtain ⟨middle, hfirst, hrest⟩ := exists_of_bind_ok hrun
    exact ih (fun hm => hdraw (List.mem_cons_of_mem _ hm)) (hdraw List.mem_cons_self h hfirst) hrest

section Draw

variable (hnumbers : ∀ number id, numbers.lookup number = some id → id < before.size)
include hnumbers

theorem onlyWired_wireTo {id : EntityId} {side : End} {color : Color} {points : List PointRecord}
    (hid : id < before.size) (h : OnlyWired before blueprint)
    (hrun : wireTo numbers id side color blueprint points = .ok after) :
    OnlyWired before after := by
  refine onlyWired_foldlM (fun {current later point} _ hcurrent hdraw => ?_) h hrun
  split at hdraw
  · next target htarget =>
    cases hdraw
    have hself : id < current.size := hcurrent.size ▸ hid
    have hother : target < current.size := hcurrent.size ▸ hnumbers _ _ htarget
    exact ⟨coherent_connect hcurrent.coherent hself hother _ _ _,
      entities_connect.1.trans hcurrent.entities, entities_connect.2.trans hcurrent.grid,
      label_connect.trans hcurrent.label⟩
  · cases hdraw

theorem onlyWired_wireRecord (h : OnlyWired before blueprint)
    (hrun : wireRecord numbers blueprint record = .ok after) : OnlyWired before after := by
  unfold wireRecord at hrun
  split at hrun
  · cases hrun
    exact h
  · next id hid =>
    refine onlyWired_foldlM (fun {current later entry} _ hcurrent hdraw => ?_) h hrun
    obtain ⟨middle, hred, hgreen⟩ := exists_of_bind_ok hdraw
    have hself := hnumbers _ _ hid
    exact onlyWired_wireTo hnumbers hself (onlyWired_wireTo hnumbers hself hcurrent hred) hgreen

end Draw

/-- However a record is written, its blueprint is coherent, a description can hold all its entities,
and its grid and what was reported follow from them. -/
theorem ofRecord_canonical {record : BlueprintRecord}
    (h : ofRecord record = .ok (blueprint, events)) :
    Coherent blueprint ∧ (∀ entity ∈ blueprint.entities, entity.Exchangeable) ∧
      blueprint.size = record.entities.length ∧
      ({ blueprint with wires := [], label := none }, events) =
        blueprint.entities.toList.foldl putDown (.empty, []) := by
  rw [ofRecord] at h
  obtain ⟨assembly, hadd, h⟩ := exists_of_bind_ok h
  obtain ⟨wired, hwire, h⟩ := exists_of_bind_ok h
  cases h
  obtain ⟨hsound, hsize⟩ := Assembly.sound_empty.addAll hadd
  have hwired := onlyWired_foldlM (fun _ => onlyWired_wireRecord hsound.numbers)
    ⟨hsound.coherent, rfl, rfl, rfl⟩ hwire
  have hbare : ({ wired with wires := [], label := none } : Blueprint) = assembly.blueprint := by
    rw [hwired.entities, hwired.grid, ← hsound.wires, ← hsound.label]
  refine ⟨?_, ?_, ?_, ?_⟩
  · exact hwired.coherent.of_entities rfl (Nat.le_refl _) (fun _ _ => rfl)
      fun he => ⟨hwired.coherent.id he, hwired.coherent.direction he⟩
  · rw [hwired.entities]
    exact hsound.exchangeable
  · show wired.size = _
    rw [hwired.size, hsize]
    exact Nat.zero_add _
  · dsimp only
    rw [hbare, hwired.entities]
    exact hsound.rebuilt

/-- The same holds of descriptions, which have at least as many characters as entities. -/
theorem ofDescription_canonical {text : String} (h : ofDescription text = .ok (blueprint, events)) :
    Coherent blueprint ∧ (∀ entity ∈ blueprint.entities, entity.Exchangeable) ∧
      blueprint.size ≤ text.length ∧
      ({ blueprint with wires := [], label := none }, events) =
        blueprint.entities.toList.foldl putDown (.empty, []) := by
  rw [ofDescription] at h
  split at h
  · next record hrecord =>
    obtain ⟨json, hjson, hread⟩ := Option.bind_eq_some_iff.mp hrecord
    obtain ⟨hcoherent, hentities, hsize, hrebuilt⟩ := ofRecord_canonical h
    refine ⟨hcoherent, hentities, ?_, hrebuilt⟩
    rw [hsize, ← String.length_toList]
    exact Nat.le_trans (BlueprintRecord.length_entities hread) (Json.extent_parse? hjson)
  · cases h

/-- Blueprints that were put down from the same entities differ in nothing but wires and label. -/
theorem eq_of_rebuilt {other : Blueprint} {reports : List Event}
    (h : ({ blueprint with wires := [], label := none }, events) =
      blueprint.entities.toList.foldl putDown (.empty, []))
    (h' : ({ other with wires := [], label := none }, reports) =
      other.entities.toList.foldl putDown (.empty, []))
    (hentities : other.entities = blueprint.entities) (hwires : other.wires = blueprint.wires)
    (hlabel : other.label = blueprint.label) : other = blueprint ∧ reports = events := by
  rw [hentities, ← h] at h'
  have hgrid : other.grid = blueprint.grid := congrArg (fun built => built.1.grid) h'
  have hevents : reports = events := congrArg Prod.snd h'
  refine ⟨?_, hevents⟩
  calc
    other = ⟨other.entities, other.wires, other.grid, other.label⟩ := rfl
    _ = blueprint := by rw [hentities, hwires, hgrid, hlabel]

/-- An end of a wire: a side of an entity that exists, and of a relay the one side it has. -/
def IsTerminal (blueprint : Blueprint) (terminal : Terminal) : Prop :=
  terminal.entity < blueprint.size ∧
    (blueprint.isRelay terminal.entity = true → terminal.side = .input)

theorem HasTerminal.isTerminal {terminal : Terminal} (h : blueprint.HasTerminal terminal) :
    blueprint.IsTerminal terminal := by
  refine ⟨h.exists_entity, fun hrelay => ?_⟩
  have hside := congrArg Terminal.side h.vertex
  simpa [Blueprint.vertex, Blueprint.terminal, hrelay, eq_comm] using hside

/-- Entities are numbered by their order and turned within a full turn, no signal has a dash in its
name, and every wire leads from the smaller of two terminals that exist to the greater. -/
structure Canonical (blueprint : Blueprint) : Prop where
  id : ∀ {id entity}, blueprint.entity? id = some entity → entity.id = id
  direction : ∀ {id entity}, blueprint.entity? id = some entity → entity.direction < 8
  names : ∀ {id entity condition}, blueprint.entity? id = some entity →
    entity.condition = some condition → ∀ name ∈ condition.names, '-' ∉ name.toList
  terminals : ∀ {wire}, wire ∈ blueprint.wires →
    blueprint.IsTerminal wire.a ∧ blueprint.IsTerminal wire.b ∧ wire.a.key < wire.b.key
  ascending : Ascending blueprint.wires

theorem canonical_of_coherent (h : Coherent blueprint)
    (he : ∀ entity ∈ blueprint.entities, entity.Exchangeable) : Canonical blueprint where
  id := h.id
  direction := h.direction
  names := fun hentity hcondition =>
    ((he _ (Array.mem_of_getElem? hentity)).condition _ hcondition).names
  terminals := by
    intro wire hw
    obtain ⟨ha, hb, hlt⟩ := h.wire hw
    exact ⟨ha.isTerminal, hb.isTerminal, hlt⟩
  ascending := h.ascending

/-- Every blueprint that is read from a description is canonical, however freely that is written. It
can be written, as a description and as a blueprint string, and either is read as the same blueprint
with the same reports: one round settles it. -/
theorem decoded_canonical {text : String} (hlength : text.length < 2 ^ 64)
    (h : ofDescription text = .ok (blueprint, events)) :
    Canonical blueprint ∧ ∃ written, blueprint.describe = .ok written ∧
      blueprint.encode = .ok (packDescription written) ∧
      ofDescription written = .ok (blueprint, events) ∧
      decode (packDescription written) = .ok (blueprint, events) := by
  obtain ⟨hcoherent, hentities, hsize, hrebuilt⟩ := ofDescription_canonical h
  obtain ⟨written, decoded, reports, hdescribe, hread, hsame, hwires, hlabel⟩ :=
    ofDescription_describe hcoherent ⟨Nat.lt_of_le_of_lt hsize hlength, hentities⟩
  obtain ⟨rfl, rfl⟩ :=
    eq_of_rebuilt hrebuilt (ofDescription_canonical hread).2.2.2 hsame hwires hlabel
  exact ⟨canonical_of_coherent hcoherent hentities, written, hdescribe, encode_eq hdescribe, hread,
    decode_packDescription.trans hread⟩

/-- A description as free as it may be: records as lists, a number that two entities have, a
direction beyond a full turn, places off the grid, a wire from an entity to itself, sides that are
named in odd ways or not at all, and links that are given at one end only. -/
def freely : String :=
  "[[[],[[7,\"decider-combinator\",[0.3,-2.75],13,[null,[[\"item\",\"a-b\"],null,null,\">\"," ++
    "[\"item\",\"c\"]]],\x7b\"+2\":[[[7,9],[3]]]\x7d],[3,\"medium-electric-pole\",[5,5]]," ++
    "[3,\"medium-electric-pole\",[1e1,0]]],\"\",null,0]]"

theorem decoded_canonical_freely :
    ∃ blueprint events, ofDescription freely = .ok (blueprint, events) ∧ blueprint.size = 3 ∧
      blueprint.wires = [⟨⟨0, .input⟩, ⟨0, .output⟩, .red⟩, ⟨⟨0, .output⟩, ⟨2, .input⟩, .red⟩] ∧
      Canonical blueprint ∧ ∃ written, blueprint.describe = .ok written ∧
        blueprint.encode = .ok (packDescription written) ∧
        ofDescription written = .ok (blueprint, events) ∧
        decode (packDescription written) = .ok (blueprint, events) := by
  have hread : (ofDescription freely).toOption.any (fun result => result.1.size = 3 ∧
      result.1.wires = [⟨⟨0, .input⟩, ⟨0, .output⟩, .red⟩,
        ⟨⟨0, .output⟩, ⟨2, .input⟩, .red⟩]) = true := by decide +kernel
  cases h : ofDescription freely with
  | error error =>
    rw [h] at hread
    cases hread
  | ok result =>
    rw [h] at hread
    obtain ⟨hsize, hwires⟩ := of_decide_eq_true hread
    exact ⟨result.1, result.2, rfl, hsize, hwires, decoded_canonical (by decide +kernel) h⟩

end Blueprint

end CircuitScript
