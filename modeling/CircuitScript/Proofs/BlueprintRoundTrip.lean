import CircuitScript.Proofs.CodecRoundTrip
import CircuitScript.Proofs.RecordReading
/-!
A description gives back the blueprint that it describes: all entities in their order, then all
wires, each of which is drawn from both of its ends.
-/
namespace CircuitScript.Blueprint

variable {blueprint original : Blueprint} {entity : Entity} {id : EntityId} {link : Link}
  {numbers : List (Nat × EntityId)}

/-- What has been assembled: the entities so far, no wire, and the entity of each number. -/
structure Assembles (assembly : Assembly) (built : Array Entity) : Prop where
  entities : assembly.blueprint.entities = built
  wires : assembly.blueprint.wires = []
  numbers : ∀ id < built.size, assembly.numbers.lookup (id + 1) = some id

theorem Assembles.push {assembly : Assembly} {built : Array Entity}
    (h : Assembles assembly built) (hentities : blueprint.entities = built.push entity)
    (hwires : blueprint.wires = []) (events : List Event) :
    Assembles ⟨blueprint, (built.size + 1, built.size) :: assembly.numbers, events⟩
      (built.push entity) where
  entities := hentities
  wires := hwires
  numbers := by
    intro id hid
    rw [Array.size_push] at hid
    by_cases hlast : id = built.size
    · rw [hlast, List.lookup_cons_self]
    · have hne : (id + 1 == built.size + 1) = false := beq_eq_false_iff_ne.2 (by omega)
      rw [List.lookup_cons, hne]
      exact h.numbers id (by omega)

theorem assembles_add (original : Blueprint) {assembly : Assembly} {built : Array Entity}
    (h : Assembles assembly built) (hid : entity.id = built.size)
    (hdirection : entity.direction < 8) (hentity : entity.Exchangeable) :
    ∃ assembly', assembly.add (original.recordOf entity) = .ok assembly' ∧
      Assembles assembly' (built.push entity) := by
  have hkind : Kind.ofText? entity.kind.text = some entity.kind := by
    cases entity.kind <;> decide
  obtain ⟨hwidth, hheight⟩ := entity.kind.footprint_le entity.direction
  have hx := Coordinate.firstTile_ofHalves hentity.position.x.1 hentity.position.x.2 hwidth
  have hy := Coordinate.firstTile_ofHalves hentity.position.y.1 hentity.position.y.2 hheight
  have hsize : assembly.blueprint.size = built.size := by rw [size, h.entities]
  have hturned : ((assembly.blueprint.create entity.kind entity.position).2.1.turn built.size
      entity.direction).1.entities =
        built.push ⟨entity.id, entity.kind, entity.position, entity.direction, none⟩ := by
    rw [← hsize, entities_turn_create, Nat.mod_eq_of_lt hdirection, hsize, hid, h.entities]
  have hwires : ((assembly.blueprint.create entity.kind entity.position).2.1.turn built.size
      entity.direction).1.wires = [] := by
    rw [wires_turn, wires_create, h.wires]
  unfold Assembly.add
  simp only [recordOf, hkind, hx, hy, create_id, hsize, hid]
  cases hcondition : entity.condition with
  | none =>
    refine ⟨_, rfl, h.push (hturned.trans ?_) hwires _⟩
    rw [← hcondition]
  | some condition =>
    have hread := Condition.condition_record (hentity.condition condition hcondition)
    simp only [Option.map_some, hread]
    refine ⟨_, rfl, h.push ((entities_configure_push hturned).trans ?_)
      (wires_configure.trans hwires) _⟩
    rw [← hcondition]

/-- The entities of a blueprint come back in their order. -/
theorem assembles_entities (hcoherent : Coherent original) (h : original.Exchangeable)
    {built rest : List Entity} (hall : original.entities.toList = built ++ rest)
    {assembly : Assembly} (hassembly : Assembles assembly built.toArray) :
    ∃ assembly', (rest.map original.recordOf).foldlM Assembly.add assembly = .ok assembly' ∧
      Assembles assembly' original.entities := by
  induction rest generalizing built assembly with
  | nil =>
    rw [List.append_nil] at hall
    refine ⟨assembly, rfl, ?_⟩
    rw [← hall] at hassembly
    exact hassembly
  | cons entity rest ih =>
    have hentity : original.entity? built.length = some entity := by
      rw [entity?, ← Array.getElem?_toList, hall]
      simp
    obtain ⟨next, hadd, hnext⟩ := assembles_add original hassembly
      ((hcoherent.id hentity).trans List.size_toArray.symm) (hcoherent.direction hentity)
      (h.entity entity (Array.mem_of_getElem? hentity))
    rw [List.push_toArray] at hnext
    obtain ⟨last, hrest, hlast⟩ := ih (by rw [hall, List.append_assoc]; rfl) hnext
    refine ⟨last, ?_, hlast⟩
    rw [List.map_cons, List.foldlM_cons, hadd]
    exact hrest

/-- Draws the wire of a link from its entity. -/
def draw (blueprint : Blueprint) (drawn : EntityId × Link) : Blueprint :=
  (blueprint.connect drawn.1 drawn.2.side drawn.2.target.entity drawn.2.target.side
    drawn.2.color).2

/-- The links of an entity in the order in which they are drawn. -/
def linksBySide (links : List Link) : List Link :=
  [End.input, .output].flatMap fun side =>
    (links.filter (·.side == side)).filter (·.color == .red) ++
      (links.filter (·.side == side)).filter (·.color == .green)

/-- All links in the order in which they are drawn. -/
def allLinks (blueprint : Blueprint) : List (EntityId × Link) :=
  blueprint.entities.toList.flatMap fun entity =>
    (linksBySide (blueprint.linksOf entity.id)).map (entity.id, ·)

theorem mem_linksBySide {links : List Link} : link ∈ linksBySide links ↔ link ∈ links := by
  obtain ⟨side, color, target⟩ := link
  cases side <;> cases color <;> simp [linksBySide]

/-- The side that was left out for a relay is the one it has. -/
theorem ofCircuitId_pointOf {target : Terminal} (h : original.HasTerminal target) :
    End.ofCircuitId ((original.pointOf target).circuit.getD 1) = target.side := by
  have hvertex := congrArg Terminal.side h.vertex
  simp only [vertex, terminal] at hvertex
  rw [pointOf]
  dsimp only
  split
  · next hrelay =>
    rw [if_pos hrelay] at hvertex
    rw [← hvertex]
    rfl
  · cases target.side <;> rfl

theorem ofKey_circuitId (side : End) : End.ofKey (toString side.circuitId) = side := by
  cases side <;> decide

section Draw

variable (hnumbers : ∀ id < original.size, numbers.lookup (id + 1) = some id)
include hnumbers

theorem wireTo_eq {side : End} {color : Color} {links : List Link}
    (hlinks : ∀ link ∈ links, original.HasTerminal link.target ∧ link.side = side ∧
      link.color = color) (blueprint : Blueprint) :
    wireTo numbers id side color blueprint (links.map fun link => original.pointOf link.target) =
      .ok ((links.map (id, ·)).foldl draw blueprint) := by
  induction links generalizing blueprint with
  | nil => rfl
  | cons link links ih =>
    obtain ⟨hterminal, rfl, rfl⟩ := hlinks link List.mem_cons_self
    have hlookup := hnumbers _ hterminal.exists_entity
    have hside := ofCircuitId_pointOf hterminal
    have hrest := ih (fun other hother => hlinks other (List.mem_cons_of_mem link hother))
      (draw blueprint (id, link))
    unfold wireTo at hrest ⊢
    rw [List.map_cons, List.foldlM_cons, List.map_cons, List.foldl_cons, ← hrest]
    have hentity : (original.pointOf link.target).entity = link.target.entity + 1 := rfl
    rw [hentity, hlookup, hside]
    rfl

/-- One side is wired in red, then in green; a side without links was not written. -/
theorem wireSide_eq (hcoherent : Coherent original) (side : End) (blueprint : Blueprint) :
    let own := (original.linksOf id).filter (·.side == side)
    (if own.isEmpty then []
      else [(toString side.circuitId, original.connectionOf own)]).foldlM
        (fun blueprint (key, connection) => do
          let side := End.ofKey key
          let blueprint ← wireTo numbers id side .red blueprint connection.red
          wireTo numbers id side .green blueprint connection.green) blueprint =
      .ok (((own.filter (·.color == .red) ++ own.filter (·.color == .green)).map (id, ·)).foldl
        draw blueprint) := by
  intro own
  have hown : ∀ color, ∀ link ∈ own.filter (·.color == color),
      original.HasTerminal link.target ∧ link.side = side ∧ link.color = color := by
    intro color link hlink
    simp only [own, List.mem_filter, beq_iff_eq] at hlink
    exact ⟨hasTerminal_of_mem_linksOf hcoherent hlink.1.1, hlink.1.2, hlink.2⟩
  split
  · next hempty =>
    rw [List.isEmpty_iff.1 hempty]
    rfl
  · simp only [List.foldlM_cons, List.foldlM_nil, bind_pure, ofKey_circuitId, connectionOf,
      wireTo_eq hnumbers (hown .red), List.map_append, List.foldl_append]
    exact wireTo_eq hnumbers (hown .green) _

/-- A record is wired along all links of its entity. -/
theorem wireRecord_eq (hcoherent : Coherent original) (hid : entity.id < original.size)
    (blueprint : Blueprint) :
    wireRecord numbers blueprint (original.recordOf entity) =
      .ok (((linksBySide (original.linksOf entity.id)).map (entity.id, ·)).foldl draw
        blueprint) := by
  have hnumber : (original.recordOf entity).number = entity.id + 1 := rfl
  have hentries : (original.recordOf entity).connections.entries =
      [End.input, .output].flatMap fun side =>
        let own := (original.linksOf entity.id).filter (·.side == side)
        if own.isEmpty then []
          else [(toString side.circuitId, original.connectionOf own)] := rfl
  unfold wireRecord
  rw [hnumber, hnumbers _ hid]
  dsimp only
  rw [linksBySide, List.flatMap_cons, List.flatMap_singleton, List.map_append, List.foldl_append,
    hentries, List.flatMap_cons, List.flatMap_singleton, List.foldlM_append,
    wireSide_eq hnumbers hcoherent .input]
  exact wireSide_eq hnumbers hcoherent .output _

/-- All records are wired along all links. -/
theorem wireRecords_eq (hcoherent : Coherent original) {entities : List Entity}
    (hentities : ∀ entity ∈ entities, entity.id < original.size) (blueprint : Blueprint) :
    (entities.map original.recordOf).foldlM (wireRecord numbers) blueprint =
      .ok ((entities.flatMap fun entity =>
        (linksBySide (original.linksOf entity.id)).map (entity.id, ·)).foldl draw blueprint) := by
  induction entities generalizing blueprint with
  | nil => rfl
  | cons entity entities ih =>
    have hrest := ih fun other hother => hentities other (List.mem_cons_of_mem entity hother)
    rw [List.map_cons, List.foldlM_cons,
      wireRecord_eq hnumbers hcoherent (hentities entity List.mem_cons_self), List.flatMap_cons,
      List.foldl_append]
    exact hrest _

end Draw

/-- Along its link an entity draws the wire that the link was taken from. -/
theorem exists_wire_of_mem_linksOf (hcoherent : Coherent original)
    (h : link ∈ original.linksOf id) :
    Wire.between ⟨id, link.side⟩ link.target link.color ∈ original.wires ∧
      original.HasTerminal ⟨id, link.side⟩ ∧ original.HasTerminal link.target ∧
      (⟨id, link.side⟩ : Terminal) ≠ link.target := by
  obtain ⟨wire, hwire, hcolor, hends⟩ := mem_linksOf.1 h
  obtain ⟨ha, hb, hlt⟩ := hcoherent.wire hwire
  have hne : wire.a ≠ wire.b := fun heq => List.lt_irrefl _ (heq ▸ hlt)
  rcases hends with ⟨hself, htarget⟩ | ⟨hself, htarget⟩
  · rw [← hself, ← htarget, ← hcolor, (Wire.between_eq hlt).1]
    exact ⟨hwire, ha, hb, hne⟩
  · rw [← hself, ← htarget, ← hcolor, (Wire.between_eq hlt).2]
    exact ⟨hwire, hb, ha, hne.symm⟩

/-- One drawn link adds its wire and leaves the rest. -/
theorem draw_spec (hcoherent : Coherent original) (hentities : blueprint.entities = original.entities)
    (hascending : Ascending blueprint.wires) (h : link ∈ original.linksOf id) :
    (draw blueprint (id, link)).entities = original.entities ∧
      Ascending (draw blueprint (id, link)).wires ∧
      ∀ wire, wire ∈ (draw blueprint (id, link)).wires ↔
        wire ∈ blueprint.wires ∨ wire = Wire.between ⟨id, link.side⟩ link.target link.color := by
  obtain ⟨-, hself, htarget, hne⟩ := exists_wire_of_mem_linksOf hcoherent h
  have hterminal : ∀ {terminal}, original.HasTerminal terminal →
      blueprint.terminal terminal.entity terminal.side = terminal := by
    intro terminal hterminal
    have hvertex := hterminal.vertex
    rw [vertex, Blueprint.terminal, isRelay, entity?, ← hentities] at hvertex
    exact hvertex
  refine ⟨entities_connect.1.trans hentities, ascending_connect hascending, fun wire => ?_⟩
  rw [draw, mem_wires_connect]
  have hfirst := hterminal hself
  have hsecond := hterminal htarget
  dsimp only at hfirst hsecond ⊢
  rw [hfirst, hsecond, and_iff_right hne]

/-- Drawn links add exactly their wires. -/
theorem draws_spec (hcoherent : Coherent original) {links : List (EntityId × Link)}
    (hlinks : ∀ drawn ∈ links, drawn.2 ∈ original.linksOf drawn.1)
    (hentities : blueprint.entities = original.entities) (hascending : Ascending blueprint.wires) :
    (links.foldl draw blueprint).entities = original.entities ∧
      Ascending (links.foldl draw blueprint).wires ∧
      ∀ wire, wire ∈ (links.foldl draw blueprint).wires ↔ wire ∈ blueprint.wires ∨
        ∃ drawn ∈ links, wire = Wire.between ⟨drawn.1, drawn.2.side⟩ drawn.2.target drawn.2.color := by
  induction links generalizing blueprint with
  | nil => simp [hentities, hascending]
  | cons drawn links ih =>
    obtain ⟨hentities', hascending', hmem⟩ :=
      draw_spec hcoherent hentities hascending (hlinks drawn List.mem_cons_self)
    obtain ⟨hentities'', hascending'', hmem'⟩ :=
      ih (fun other hother => hlinks other (List.mem_cons_of_mem drawn hother)) hentities' hascending'
    refine ⟨hentities'', hascending'', fun wire => ?_⟩
    rw [List.foldl_cons, hmem', hmem, or_assoc, List.exists_mem_cons_iff]

/-- Every wire is drawn, since its first end stands on an entity. -/
theorem mem_wires_iff_drawn (hcoherent : Coherent original) {wire : Wire} :
    wire ∈ original.wires ↔ ∃ drawn ∈ original.allLinks,
      wire = Wire.between ⟨drawn.1, drawn.2.side⟩ drawn.2.target drawn.2.color := by
  simp only [allLinks, List.mem_flatMap, List.mem_map, mem_linksBySide]
  constructor
  · intro hwire
    obtain ⟨ha, -, hlt⟩ := hcoherent.wire hwire
    obtain ⟨entity, hentity⟩ := entity?_eq_some_iff.2 ha.exists_entity
    have hid := hcoherent.id hentity
    have hmem : entity ∈ original.entities.toList :=
      Array.mem_toList_iff.2 (Array.mem_of_getElem? hentity)
    have hlink : (⟨wire.a.side, wire.color, wire.b⟩ : Link) ∈ original.linksOf entity.id :=
      mem_linksOf.2 ⟨wire, hwire, rfl, .inl ⟨by rw [hid], rfl⟩⟩
    refine ⟨_, ⟨entity, hmem, _, hlink, rfl⟩, ?_⟩
    rw [hid]
    exact (Wire.between_eq hlt).1.symm
  · rintro ⟨_, ⟨entity, -, link, hlink, rfl⟩, rfl⟩
    exact (exists_wire_of_mem_linksOf hcoherent hlink).1

theorem ofRecord_eq {record : BlueprintRecord} {assembly : Assembly} {wired : Blueprint}
    (hadd : record.entities.foldlM Assembly.add ⟨.empty, [], []⟩ = .ok assembly)
    (hwire : record.entities.foldlM (wireRecord assembly.numbers) assembly.blueprint = .ok wired) :
    ofRecord record = .ok ({ wired with label := record.label }, assembly.events) := by
  rw [ofRecord, hadd]
  change (record.entities.foldlM (wireRecord assembly.numbers) assembly.blueprint >>=
    fun blueprint => pure ({ blueprint with label := record.label }, assembly.events)) = _
  rw [hwire]
  rfl

/-- The record of a blueprint gives the blueprint back. -/
theorem ofRecord_record (hcoherent : Coherent original) (h : original.Exchangeable) :
    ∃ decoded events, ofRecord original.record = .ok (decoded, events) ∧
      decoded.entities = original.entities ∧ decoded.wires = original.wires ∧
      decoded.label = original.label := by
  have hstart : Assembles ⟨.empty, [], []⟩ [].toArray := ⟨rfl, rfl, by simp⟩
  obtain ⟨assembly, hadd, hassembly⟩ := assembles_entities hcoherent h rfl hstart
  have hids : ∀ entity ∈ original.entities.toList, entity.id < original.size := by
    intro entity hentity
    obtain ⟨id, hid⟩ := Array.mem_iff_getElem?.1 (Array.mem_toList_iff.1 hentity)
    rw [hcoherent.id hid]
    exact entity?_eq_some_iff.1 ⟨entity, hid⟩
  have hwire : original.record.entities.foldlM (wireRecord assembly.numbers) assembly.blueprint =
      .ok (original.allLinks.foldl draw assembly.blueprint) :=
    wireRecords_eq hassembly.numbers hcoherent hids _
  have hlinks : ∀ drawn ∈ original.allLinks, drawn.2 ∈ original.linksOf drawn.1 := by
    simp only [allLinks, List.mem_flatMap, List.mem_map, mem_linksBySide]
    rintro _ ⟨entity, -, link, hlink, rfl⟩
    exact hlink
  obtain ⟨hentities, hascending, hmem⟩ := draws_spec hcoherent hlinks hassembly.entities
    (by rw [hassembly.wires]; exact List.Pairwise.nil)
  have hwires := hascending.ext hcoherent.ascending fun wire => by
    rw [hmem, hassembly.wires, mem_wires_iff_drawn hcoherent]
    simp
  refine ⟨{ original.allLinks.foldl draw assembly.blueprint with label := original.label },
    assembly.events, ?_, hentities, hwires, rfl⟩
  exact ofRecord_eq hadd hwire

/-- The description of a blueprint is read as the blueprint. -/
theorem ofDescription_describe (hcoherent : Coherent original) (h : original.Exchangeable) :
    ∃ text decoded events, original.describe = .ok text ∧
      ofDescription text = .ok (decoded, events) ∧
      decoded.entities = original.entities ∧ decoded.wires = original.wires ∧
      decoded.label = original.label := by
  obtain ⟨json, hjson, hreads⟩ := reads_toJson hcoherent h
  obtain ⟨decoded, events, hrecord, hsame⟩ := ofRecord_record hcoherent h
  refine ⟨json.render, decoded, events, ?_, ?_, hsame⟩
  · rw [describe, hjson]
    rfl
  · rw [ofDescription, Json.parse?_render hreads.wellFormed, Option.bind_some, hreads.read]
    exact hrecord

/-- Every blueprint that the operations build and a description can hold is encoded, and both its
description and its blueprint string give its entities, its wires and its label back. -/
theorem decode_encode (hbuilt : Built blueprint) (h : blueprint.Exchangeable) :
    ∃ text decoded events, blueprint.describe = .ok text ∧
      blueprint.encode = .ok (packDescription text) ∧
      ofDescription text = .ok (decoded, events) ∧
      decode (packDescription text) = .ok (decoded, events) ∧
      decoded.entities = blueprint.entities ∧ decoded.wires = blueprint.wires ∧
      decoded.label = blueprint.label := by
  obtain ⟨text, decoded, events, hdescribe, hread, hsame⟩ :=
    ofDescription_describe hbuilt.coherent h
  refine ⟨text, decoded, events, hdescribe, ?_, hread, ?_, hsame⟩
  · rw [encode, hdescribe]
    rfl
  · rw [decode, unpackDescription_packDescription]
    exact hread

/-- Two combinators that feed each other, one of them also itself, and a relay. -/
def feedback : Blueprint :=
  let placed := ((((Blueprint.empty.create .arithmetic ⟨-3, 4⟩).2.1.create .decider ⟨0, -7⟩).2.1
    ).create .relay ⟨2, 2⟩).2.1
  let configured := ((placed.turn 1 6).1.configure 0
    (.arithmetic (.constant (-5)) .mul (.signal "iron_plate") "signal_A")).configure 1
    (.decider (.signal "signal_A") .lt (.constant 10) "signal_B" true)
  let wired := (((configured.connect 0 .output 1 .input .red).2.connect 0 .output 0 .input
    .green).2.connect 2 .output 1 .output .red).2
  (wired.withLabel "\"feedback\"\n").center

theorem built_feedback : Built feedback := by
  have hplaced := ((Built.empty.create .arithmetic ⟨-3, 4⟩).create .decider ⟨0, -7⟩).create .relay
    ⟨2, 2⟩
  have hconfigured := ((hplaced.turn 1 6).configure 0
    (.arithmetic (.constant (-5)) .mul (.signal "iron_plate") "signal_A")).configure 1
    (.decider (.signal "signal_A") .lt (.constant 10) "signal_B" true)
  have hfed := hconfigured.connect 0 .output 1 .input .red (by decide) (by decide)
  have hlooped := hfed.connect 0 .output 0 .input .green (by decide) (by decide)
  have hwired := hlooped.connect 2 .output 1 .output .red (by decide) (by decide)
  exact (hwired.withLabel _).center

theorem exchangeable_feedback : feedback.Exchangeable where
  size := by decide +kernel
  entity := by
    have hentities : feedback.entities.toList =
        [⟨0, .arithmetic, ⟨-3, 5⟩, 0, some (.arithmetic (.constant (-5)) .mul
            (.signal "iron_plate") "signal_A")⟩,
          ⟨1, .decider, ⟨0, -6⟩, 6, some (.decider (.signal "signal_A") .lt (.constant 10)
            "signal_B" true)⟩,
          ⟨2, .relay, ⟨2, 3⟩, 0, none⟩] := by decide +kernel
    intro entity hentity
    rw [← Array.mem_toList_iff, hentities] at hentity
    simp only [List.mem_cons, List.not_mem_nil, or_false] at hentity
    rcases hentity with rfl | rfl | rfl
    · refine ⟨⟨by decide, by decide⟩, ?_⟩
      rintro _ ⟨⟩
      exact ⟨by decide, by simp⟩
    · refine ⟨⟨by decide, by decide⟩, ?_⟩
      rintro _ ⟨⟩
      exact ⟨by decide, by simp⟩
    · exact ⟨⟨by decide, by decide⟩, by simp⟩

theorem decode_encode_feedback : Built feedback ∧ feedback.Exchangeable ∧
    ∃ text decoded events, feedback.describe = .ok text ∧
      feedback.encode = .ok (packDescription text) ∧
      ofDescription text = .ok (decoded, events) ∧
      decode (packDescription text) = .ok (decoded, events) ∧
      decoded.entities = feedback.entities ∧ decoded.wires = feedback.wires ∧
      decoded.label = feedback.label :=
  ⟨built_feedback, exchangeable_feedback, decode_encode built_feedback exchangeable_feedback⟩

end CircuitScript.Blueprint
