import CircuitScript.Blueprint.Format
import CircuitScript.Proofs.Construction
import CircuitScript.Proofs.NumeralReading
/-!
The records of a description are read as they were written: signals, payloads, links and entities.
-/
namespace CircuitScript

namespace Json

variable {α β : Type} {json : Json} {value : α} {read : Json → Option α}

/-- The value has a written form, and it is read as `value`. -/
structure Reads (read : Json → Option α) (json : Json) (value : α) : Prop where
  wellFormed : json.WellFormed
  read : read json = some value

theorem valuesOf_map {members : List (String × Json)} (h : (members.map (·.1)).Nodup)
    (name : String) :
    valuesOf name (members.map fun (key, value) => (some key, value)) =
      (members.lookup name).toList := by
  induction members with
  | nil => rfl
  | cons entry rest ih =>
    obtain ⟨key, value⟩ := entry
    obtain ⟨hkey, hrest⟩ := List.nodup_cons.1 h
    have htail := ih hrest
    unfold valuesOf at htail ⊢
    by_cases heq : key = name
    · subst heq
      have hnone : rest.lookup key = none := by
        rw [List.lookup_eq_none_iff]
        intro entry hentry
        exact bne_iff_ne.2 fun heq => hkey (List.mem_map.2 ⟨entry, hentry, heq.symm⟩)
      rw [hnone] at htail
      rw [List.map_cons, List.filter_cons_of_pos (by simp), List.map_cons, htail,
        List.lookup_cons_self]
      rfl
    · rw [List.map_cons, List.filter_cons_of_neg (by simpa using heq), htail, List.lookup_cons,
        beq_eq_false_iff_ne.2 fun h => heq h.symm]

/-- The fields of a record whose keys differ are found by their names. -/
theorem fields?_ofMembers {members : List (String × Json)} (h : (members.map (·.1)).Nodup)
    (names : List String) :
    fields? names (ofMembers members) = some (names.map fun name => members.lookup name) := by
  have hkeys : (members.map fun (key, value) => (some key, value)).any
      (fun member : Option String × Json => member.1.isNone) = false := by
    simp
  rw [ofMembers, fields?, hkeys, if_neg Bool.false_ne_true]
  induction names with
  | nil => rfl
  | cons name names ih =>
    rw [List.mapM_cons, ih, valuesOf_map h]
    cases hlookup : members.lookup name <;> simp [hlookup]

@[simp] theorem required_some : required read (some json) = read json := rfl

@[simp] theorem optional_none : optional read none = some none := rfl

@[simp] theorem defaulted_some {default : α} : defaulted default read (some json) = read json := rfl

@[simp] theorem defaulted_none {default : α} : defaulted default read none = some default := rfl

@[simp] theorem text?_text (value : String) : (text value).text? = some value := rfl

@[simp] theorem bool?_bool (value : Bool) : (bool value).bool? = some value := rfl

@[simp] theorem discard_some (value : α) : discard (some value) = some () := rfl

theorem optional_some (hnull : read null = none) (h : read json = some value) :
    optional read (some json) = some (some value) := by
  cases json <;> simp_all [optional]

theorem Reads.of_fields {members : List (String × Json)}
    (hmembers : ∀ entry ∈ members, entry.2.WellFormed)
    (h : read (ofMembers members) = some value) : Reads read (ofMembers members) value :=
  ⟨wellFormed_ofMembers.2 hmembers, h⟩

/-- Items that are each written and read make a list that is. -/
theorem reads_list (write : β → Except Error Json) (result : β → α) {list : List β}
    (h : ∀ x ∈ list, ∃ json, write x = .ok json ∧ Reads read json (result x)) :
    ∃ items, list.mapM write = .ok items ∧
      Reads (list? read) (array items) (list.map result) := by
  induction list with
  | nil => exact ⟨[], rfl, wellFormed_array.2 (by simp), by simp [list?]⟩
  | cons x rest ih =>
    obtain ⟨json, hwrite, hread⟩ := h x List.mem_cons_self
    obtain ⟨items, hwrites, hreads⟩ := ih fun y hy => h y (List.mem_cons_of_mem x hy)
    refine ⟨json :: items, ?_, ?_, ?_⟩
    · simp [List.mapM_cons, hwrite, hwrites]
      rfl
    · rw [wellFormed_array]
      intro item hitem
      rcases List.mem_cons.1 hitem with rfl | hitem
      · exact hread.wellFormed
      · exact wellFormed_array.1 hreads.wellFormed item hitem
    · have htail : items.mapM read = some (rest.map result) := hreads.read
      simp [list?, List.mapM_cons, hread.read, htail]

end Json

open Json

theorem SignalId.reads_toJson (id : SignalId) : Reads SignalId.ofJson? id.toJson id := by
  refine .of_fields (by simp [wellFormed_text]) ?_
  rw [SignalId.ofJson?, fields?_ofMembers (by simp)]
  simp [List.lookup_cons]

theorem reads_signalJson (name : String) :
    Reads SignalId.ofJson? (signalJson name) (.ofName name) :=
  SignalId.reads_toJson _

theorem optional_signalJson (name : String) :
    Json.optional SignalId.ofJson? (some (signalJson name)) = some (some (.ofName name)) :=
  optional_some rfl (reads_signalJson name).read

theorem optional_int (value : Int32) :
    Json.optional int32? (some (.int value.toInt)) = some (some value) :=
  optional_some rfl (int32?_int value)

/-- A name without dashes survives being written with them. -/
theorem SignalId.toName_ofName {name : String} (h : '-' ∉ name.toList) :
    toName (ofName name).name = name := by
  apply String.toList_inj.1
  simp only [toName, ofName, String.toList_map, List.map_map]
  conv_rhs => rw [← List.map_id name.toList]
  apply List.map_congr_left
  intro c hc
  have hdash : c ≠ '-' := by
    rintro rfl
    exact h hc
  by_cases hscore : c = '_' <;> simp [hscore, hdash]

namespace Operand

/-- The signals that the operand names. -/
def names : Operand → List String
  | signal name => [name]
  | constant _ => []

def signal? : Operand → Option SignalId
  | signal name => some (.ofName name)
  | constant _ => none

def constant? : Operand → Option Int32
  | signal _ => none
  | constant value => some value

theorem ofRecord_record (operand : Operand) (h : ∀ name ∈ operand.names, '-' ∉ name.toList) :
    ofRecord operand.signal? operand.constant? = operand := by
  cases operand with
  | signal name => simp [ofRecord, signal?, SignalId.toName_ofName (h name (by simp [names]))]
  | constant value => simp [ofRecord, signal?, constant?]

theorem wellFormed_field (operand : Operand) (signalKey constantKey : String) :
    (operand.field signalKey constantKey).2.WellFormed := by
  cases operand with
  | signal name => exact (reads_signalJson name).wellFormed
  | constant value => exact wellFormed_int _

end Operand

namespace Condition

/-- The signals that the payload names. -/
def names : Condition → List String
  | arithmetic left _ right out => out :: (left.names ++ right.names)
  | decider left _ right out _ => out :: (left.names ++ right.names)

/-- A payload that a description can hold: the first operand of a decider is a signal, and no name
has a dash, which stands for an underscore there. -/
structure Exchangeable (condition : Condition) : Prop where
  names : ∀ name ∈ condition.names, '-' ∉ name.toList
  first : ∀ value op right out counting, condition ≠ decider (.constant value) op right out counting

/-- The record that a payload is read as. -/
def record : Condition → ControlRecord
  | arithmetic left op right out =>
    ⟨some ⟨left.signal?, left.constant?, right.signal?, right.constant?, op.symbol, .ofName out⟩,
      none⟩
  | decider (.signal first) op right out counting =>
    ⟨none, some ⟨.ofName first, right.signal?, right.constant?, op.symbol, .ofName out, counting⟩⟩
  | decider (.constant _) .. => ⟨none, none⟩

theorem condition_record {condition : Condition} (h : condition.Exchangeable) :
    condition.record.condition = .ok condition := by
  match condition, h with
  | arithmetic left op right out, h =>
    have hout := SignalId.toName_ofName (h.names out (by simp [names]))
    have hleft := Operand.ofRecord_record left fun name hn =>
      h.names name (by simp [names, hn])
    have hright := Operand.ofRecord_record right fun name hn =>
      h.names name (by simp [names, hn])
    have hop : Arith.ofText? op.symbol = some op := by cases op <;> decide
    simp [record, ControlRecord.condition, ArithmeticRecord.condition, hout, hleft, hright, hop]
  | decider (.signal first) op right out counting, h =>
    have hout := SignalId.toName_ofName (h.names out (by simp [names]))
    have hfirst := SignalId.toName_ofName (h.names first (by simp [names, Operand.names]))
    have hright := Operand.ofRecord_record right fun name hn =>
      h.names name (by simp [names, hn])
    have hop : Comparator.ofText? op.symbol = some op := by cases op <;> decide
    simp [record, ControlRecord.condition, DeciderRecord.condition, hout, hfirst, hright, hop]
  | decider (.constant value) op right out counting, h =>
    exact absurd rfl (h.first value op right out counting)

end Condition

theorem ArithmeticRecord.reads (left right : Operand) (op : Arith) (out : String) :
    Reads ArithmeticRecord.ofJson?
      (.ofMembers [left.field "first_signal" "first_constant",
        right.field "second_signal" "second_constant", ("operation", .text op.symbol),
        ("output_signal", signalJson out)])
      ⟨left.signal?, left.constant?, right.signal?, right.constant?, op.symbol, .ofName out⟩ := by
  have hout := reads_signalJson out
  refine .of_fields (by simp [wellFormed_text, Operand.wellFormed_field, hout.wellFormed]) ?_
  cases left <;> cases right <;>
    simp [ArithmeticRecord.ofJson?, fields?_ofMembers, List.lookup_cons, Operand.field, hout.read,
      optional_signalJson, optional_int, Operand.signal?, Operand.constant?]

theorem DeciderRecord.reads (first : String) (right : Operand) (op : Comparator) (out : String)
    (counting : Bool) :
    Reads DeciderRecord.ofJson?
      (.ofMembers [("first_signal", signalJson first), right.field "second_signal" "constant",
        ("comparator", .text op.symbol), ("output_signal", signalJson out),
        ("copy_count_from_input", .bool counting)])
      ⟨.ofName first, right.signal?, right.constant?, op.symbol, .ofName out, counting⟩ := by
  have hfirst := reads_signalJson first
  have hout := reads_signalJson out
  refine .of_fields (by simp [wellFormed_text, Operand.wellFormed_field, hout.wellFormed,
    hfirst.wellFormed, WellFormed]) ?_
  cases right <;>
    simp [DeciderRecord.ofJson?, fields?_ofMembers, List.lookup_cons, Operand.field, hout.read,
      hfirst.read, optional_signalJson, optional_int, Operand.signal?, Operand.constant?]

theorem Condition.reads_toJson {condition : Condition} (h : condition.Exchangeable) :
    ∃ json, condition.toJson = .ok json ∧ Reads ControlRecord.ofJson? json condition.record := by
  match condition, h with
  | arithmetic left op right out, h =>
    have hrecord := ArithmeticRecord.reads left right op out
    refine ⟨_, rfl, .of_fields (by simpa using hrecord.wellFormed) ?_⟩
    rw [ControlRecord.ofJson?, fields?_ofMembers (by simp)]
    simp [List.lookup_cons, optional_some rfl hrecord.read, record]
  | decider (.signal first) op right out counting, h =>
    have hrecord := DeciderRecord.reads first right op out counting
    refine ⟨_, rfl, .of_fields (by simpa using hrecord.wellFormed) ?_⟩
    rw [ControlRecord.ofJson?, fields?_ofMembers (by simp)]
    simp [List.lookup_cons, optional_some rfl hrecord.read, record]
  | decider (.constant value) op right out counting, h =>
    exact absurd rfl (h.first value op right out counting)

namespace Coordinate

/-- The coordinate that a number of halves is read as. -/
def ofHalves (n : Int) : Coordinate :=
  ⟨decide (n < 0), (Numeral.ofHalves n).toBinary64?.getD .infinite⟩

theorem reads_ofHalves {n : Int} (h : n.natAbs < 2 ^ 49) :
    Reads Coordinate.ofJson? (.number (.ofHalves n)) (ofHalves n) := by
  obtain ⟨magnitude, hmagnitude, -⟩ := Numeral.toBinary64?_ofHalves h
  refine ⟨wellFormed_halves n, ?_⟩
  simp only [Coordinate.ofJson?, number?, hmagnitude, ofHalves, Option.bind_eq_bind,
    Option.bind_some, Option.getD_some]
  rfl

theorem firstTile_ofHalves {tile size : Int} (hlow : -2 ^ 31 ≤ tile) (hhigh : tile < 2 ^ 31)
    (hsize : size.natAbs ≤ 2) : (ofHalves (2 * tile + size)).firstTile size = tile := by
  have hbound : (2 * tile + size).natAbs < 2 ^ 49 := by omega
  obtain ⟨magnitude, hmagnitude, hhalves⟩ := Numeral.toBinary64?_ofHalves hbound
  rw [ofHalves, hmagnitude, Option.getD_some]
  exact firstTile_middle hlow hhigh hhalves

end Coordinate

/-- The tile has coordinates of 32 bits. -/
structure Position.Fits (position : Position) : Prop where
  x : -2 ^ 31 ≤ position.x ∧ position.x < 2 ^ 31
  y : -2 ^ 31 ≤ position.y ∧ position.y < 2 ^ 31

theorem Kind.footprint_le (kind : Kind) (direction : Nat) :
    (kind.footprint direction).1.natAbs ≤ 2 ∧ (kind.footprint direction).2.natAbs ≤ 2 := by
  cases kind with
  | relay => simp [Kind.footprint]
  | arithmetic | decider =>
    simp only [Kind.footprint]
    split <;> exact ⟨by decide, by decide⟩

/-- An entity that a description can hold. -/
structure Entity.Exchangeable (entity : Entity) : Prop where
  position : entity.position.Fits
  condition : ∀ condition, entity.condition = some condition → condition.Exchangeable

namespace Blueprint

variable {blueprint : Blueprint}

/-- The point that a link is read as. -/
def pointOf (blueprint : Blueprint) (target : Terminal) : PointRecord where
  entity := target.entity + 1
  circuit := if blueprint.isRelay target.entity then none else some target.side.circuitId

theorem reads_linkJson (hfits : blueprint.size < 2 ^ 64) {target : Terminal}
    (h : blueprint.HasTerminal target) : ∃ json, blueprint.linkJson target = .ok json ∧
      Reads PointRecord.ofJson? json (blueprint.pointOf target) := by
  obtain ⟨entity, he⟩ := entity?_eq_some_iff.2 h.exists_entity
  have hnumber : (nat (target.entity + 1)).natWithin? 64 = some (target.entity + 1) :=
    natWithin?_nat (by decide) (Nat.lt_of_le_of_lt h.exists_entity hfits)
  have hside : Json.optional (natWithin? 8) (some (.nat target.side.circuitId)) =
      some (some target.side.circuitId) :=
    optional_some rfl (natWithin?_nat (by decide) (by cases target.side <;> decide))
  have hrelay : blueprint.isRelay target.entity = decide (entity.kind = .relay) := by
    simp only [isRelay, he, Option.any_some]
    rfl
  unfold linkJson
  rw [he]
  refine ⟨_, rfl, .of_fields ?_ ?_⟩
  · split <;> simp [wellFormed_nat]
  · rw [PointRecord.ofJson?, fields?_ofMembers (by split <;> simp), pointOf, hrelay]
    split <;> simp_all [List.lookup_cons]

/-- The wires of one side, as they are read. -/
def connectionOf (blueprint : Blueprint) (links : List Link) : ConnectionRecord where
  red := (links.filter (·.color == .red)).map fun link => blueprint.pointOf link.target
  green := (links.filter (·.color == .green)).map fun link => blueprint.pointOf link.target

/-- The connections of an entity, as they are read. -/
def connectionsOf (blueprint : Blueprint) (links : List Link) : Dict ConnectionRecord where
  entries := [End.input, .output].flatMap fun side =>
    let own := links.filter (·.side == side)
    if own.isEmpty then [] else [(toString side.circuitId, blueprint.connectionOf own)]

/-- Both sides, one or none: an object without members is not written. -/
theorem defaulted_sides {α : Type} {read : Json → Option α} {input output : Json} {a b : α}
    (ha : read input = some a) (hb : read output = some b) (noInput noOutput : Bool) :
    let members := (if noInput then [] else [(toString End.input.circuitId, input)]) ++
      (if noOutput then [] else [(toString End.output.circuitId, output)])
    defaulted .empty (dict? read)
      (if members.isEmpty then none else some (.ofMembers members)) =
      some ⟨(if noInput then [] else [(toString End.input.circuitId, a)]) ++
        (if noOutput then [] else [(toString End.output.circuitId, b)])⟩ := by
  have hinput : toString End.input.circuitId = "1" := by decide
  have houtput : toString End.output.circuitId = "2" := by decide
  have hone : ∀ (key : String) (value : α), Dict.ofList [(key, value)] = ⟨[(key, value)]⟩ :=
    fun _ _ => rfl
  have hboth : Dict.ofList [("1", a), ("2", b)] = ⟨[("1", a), ("2", b)]⟩ := by
    have hne : ¬("2" : String) = "1" := by decide
    have hlt : ¬("2" : String) < "1" := by decide
    change Dict.mk (Dict.place "2" b [("1", a)]) = _
    rw [Dict.place, if_neg hne, if_neg hlt, Dict.place]
  rw [hinput, houtput]
  cases noInput <;> cases noOutput <;>
    simp [dict?, ofMembers, ha, hb, hone, hboth, Dict.empty]

section Links

variable (hfits : blueprint.size < 2 ^ 64) {links : List Link}
  (hlinks : ∀ link ∈ links, blueprint.HasTerminal link.target)
include hfits hlinks

/-- One colour is written as a list of points, or not at all. -/
theorem colorFields_eq (color : Color) : ∃ points,
    blueprint.colorFields links color =
      .ok (if points.isEmpty then [] else [(color.text, .array points)]) ∧
    Reads (list? PointRecord.ofJson?) (.array points)
      ((links.filter (·.color == color)).map fun link => blueprint.pointOf link.target) := by
  obtain ⟨points, hpoints, hreads⟩ := reads_list (fun link => blueprint.linkJson link.target)
    (fun link => blueprint.pointOf link.target) fun link hlink =>
      reads_linkJson hfits (hlinks link (List.mem_of_mem_filter hlink))
  refine ⟨points, ?_, hreads⟩
  rw [colorFields, hpoints]
  rfl

/-- The links of one side make a record. -/
theorem reads_colorFields : ∃ red green,
    blueprint.colorFields links .red = .ok red ∧ blueprint.colorFields links .green = .ok green ∧
    Reads ConnectionRecord.ofJson? (.ofMembers (red ++ green)) (blueprint.connectionOf links) := by
  obtain ⟨red, hred, hreadsRed⟩ := colorFields_eq hfits hlinks .red
  obtain ⟨green, hgreen, hreadsGreen⟩ := colorFields_eq hfits hlinks .green
  refine ⟨_, _, hred, hgreen, .of_fields ?_ ?_⟩
  · have hwellRed := hreadsRed.wellFormed
    have hwellGreen := hreadsGreen.wellFormed
    split <;> split <;> simp_all
  · have hreadRed := hreadsRed.read
    have hreadGreen := hreadsGreen.read
    have hempty : list? PointRecord.ofJson? (.array []) = some [] := rfl
    rw [ConnectionRecord.ofJson?, connectionOf]
    by_cases hr : red = [] <;> by_cases hg : green = [] <;>
      simp_all [fields?_ofMembers, List.lookup_cons, Color.text]

theorem sideFields_eq (side : End) : ∃ json,
    blueprint.sideFields links side = .ok (if (links.filter (·.side == side)).isEmpty then []
      else [(toString side.circuitId, json)]) ∧
    Reads ConnectionRecord.ofJson? json
      (blueprint.connectionOf (links.filter (·.side == side))) := by
  have hown : ∀ link ∈ links.filter (·.side == side), blueprint.HasTerminal link.target :=
    fun link hlink => hlinks link (List.mem_of_mem_filter hlink)
  obtain ⟨red, green, hred, hgreen, hreads⟩ := reads_colorFields hfits hown
  refine ⟨_, ?_, hreads⟩
  simp only [sideFields, hred, hgreen]
  rfl

/-- The two sides are written as one record, or not at all. -/
theorem reads_sideFields : ∃ input output,
    blueprint.sideFields links .input = .ok input ∧
    blueprint.sideFields links .output = .ok output ∧
    (Json.ofMembers (input ++ output)).WellFormed ∧
    defaulted .empty (dict? ConnectionRecord.ofJson?)
      (if (input ++ output).isEmpty then none else some (.ofMembers (input ++ output))) =
        some (blueprint.connectionsOf links) := by
  obtain ⟨input, hinput, hreadsInput⟩ := sideFields_eq hfits hlinks .input
  obtain ⟨output, houtput, hreadsOutput⟩ := sideFields_eq hfits hlinks .output
  refine ⟨_, _, hinput, houtput, ?_, ?_⟩
  · have hwellInput := hreadsInput.wellFormed
    have hwellOutput := hreadsOutput.wellFormed
    rw [wellFormed_ofMembers]
    split <;> split <;> simp_all
  · rw [defaulted_sides hreadsInput.read hreadsOutput.read, connectionsOf]
    simp only [List.flatMap_cons, List.flatMap_nil, List.append_nil]

end Links

/-- The record that an entity is read as. -/
def recordOf (blueprint : Blueprint) (entity : Entity) : EntityRecord where
  number := entity.id + 1
  name := entity.kind.text
  x := .ofHalves (2 * entity.position.x + (entity.kind.footprint entity.direction).1)
  y := .ofHalves (2 * entity.position.y + (entity.kind.footprint entity.direction).2)
  direction := entity.direction
  control := entity.condition.map Condition.record
  connections := blueprint.connectionsOf (blueprint.linksOf entity.id)

/-- Links lead to the other end of a wire. -/
theorem mem_linksOf {id : EntityId} {link : Link} : link ∈ blueprint.linksOf id ↔
    ∃ wire ∈ blueprint.wires, wire.color = link.color ∧
      (wire.a = ⟨id, link.side⟩ ∧ wire.b = link.target ∨
        wire.b = ⟨id, link.side⟩ ∧ wire.a = link.target) := by
  obtain ⟨side, color, target⟩ := link
  simp only [linksOf, List.mem_flatMap]
  refine exists_congr fun wire => and_congr_right fun _ => ?_
  obtain ⟨⟨a, aside⟩, ⟨b, bside⟩, color'⟩ := wire
  simp only [Wire.linksOf, List.mem_append, Terminal.mk.injEq]
  constructor
  · rintro (h | h)
    · split at h <;> simp_all
    · split at h <;> simp_all
  · rintro ⟨rfl, ⟨⟨rfl, rfl⟩, rfl⟩ | ⟨⟨rfl, rfl⟩, rfl⟩⟩
    · simp
    · simp

theorem reads_control {condition : Option Condition}
    (h : ∀ c, condition = some c → c.Exchangeable) : ∃ control : Option Json,
      condition.mapM Condition.toJson = .ok control ∧
      (∀ json, control = some json → json.WellFormed) ∧
      Json.optional ControlRecord.ofJson? control = some (condition.map Condition.record) := by
  cases condition with
  | none => exact ⟨none, rfl, by simp, rfl⟩
  | some c =>
    obtain ⟨json, hjson, hreads⟩ := c.reads_toJson (h c rfl)
    refine ⟨some json, ?_, ?_, optional_some rfl hreads.read⟩
    · rw [Option.mapM_some, hjson]
      rfl
    · rintro _ ⟨⟩
      exact hreads.wellFormed

theorem hasTerminal_of_mem_linksOf (hcoherent : Coherent blueprint) {id : EntityId} {link : Link}
    (h : link ∈ blueprint.linksOf id) : blueprint.HasTerminal link.target := by
  obtain ⟨wire, hwire, -, ⟨-, htarget⟩ | ⟨-, htarget⟩⟩ := mem_linksOf.1 h
  · exact htarget ▸ (hcoherent.wire hwire).2.1
  · exact htarget ▸ (hcoherent.wire hwire).1

/-- The members of the record of an entity, of which the last three may be left out. -/
def entityMembers (number name position : Json) (direction control connections : Option Json) :
    List (String × Json) :=
  [("entity_number", number), ("name", name), ("position", position)] ++
    direction.toList.map ("direction", ·) ++ control.toList.map ("control_behavior", ·) ++
    connections.toList.map ("connections", ·)

section Members

variable {number name position : Json} {direction control connections : Option Json}

theorem fields?_entityMembers :
    fields? ["entity_number", "name", "position", "direction", "control_behavior", "connections"]
      (.ofMembers (entityMembers number name position direction control connections)) =
      some [some number, some name, some position, direction, control, connections] := by
  rcases direction with _ | direction <;> rcases control with _ | control <;>
    rcases connections with _ | connections <;>
    simp [entityMembers, fields?_ofMembers, List.lookup_cons]

theorem wellFormed_entityMembers (hnumber : number.WellFormed) (hname : name.WellFormed)
    (hposition : position.WellFormed)
    (hoptional : ∀ field ∈ [direction, control, connections], ∀ json, field = some json →
      json.WellFormed) :
    (Json.ofMembers
      (entityMembers number name position direction control connections)).WellFormed := by
  rw [wellFormed_ofMembers]
  simp only [entityMembers, List.mem_append, List.mem_cons, List.not_mem_nil, or_false,
    List.mem_map, Option.mem_toList]
  rintro entry ((((rfl | rfl | rfl) | ⟨json, hjson, rfl⟩) | ⟨json, hjson, rfl⟩) | ⟨json, hjson, rfl⟩)
  · exact hnumber
  · exact hname
  · exact hposition
  · exact hoptional direction (by simp) json hjson
  · exact hoptional control (by simp) json hjson
  · exact hoptional connections (by simp) json hjson

end Members

/-- The position of the middle of an entity. -/
def middleJson (entity : Entity) : Json :=
  let (width, height) := entity.kind.footprint entity.direction
  .ofMembers [("x", .number (.ofHalves (2 * entity.position.x + width))),
    ("y", .number (.ofHalves (2 * entity.position.y + height)))]

theorem toList_ite_map {p : Prop} [Decidable p] {json : Json} {key : String} :
    (if p then none else some json).toList.map (key, ·) = if p then [] else [(key, json)] := by
  split <;> rfl

theorem entityJson_eq {entity : Entity} {input output : List (String × Json)}
    {control : Option Json}
    (hinput : blueprint.sideFields (blueprint.linksOf entity.id) .input = .ok input)
    (houtput : blueprint.sideFields (blueprint.linksOf entity.id) .output = .ok output)
    (hcontrol : entity.condition.mapM Condition.toJson = .ok control) :
    blueprint.entityJson entity = .ok (.ofMembers (entityMembers (.nat (entity.id + 1))
      (.text entity.kind.text) (middleJson entity)
      (if entity.direction = 0 then none else some (.nat entity.direction)) control
      (if (input ++ output).isEmpty then none else some (.ofMembers (input ++ output))))) := by
  rw [entityMembers, toList_ite_map, toList_ite_map]
  simp only [entityJson, hinput, houtput, hcontrol]
  cases control <;> rfl

theorem reads_middleJson {entity : Entity} (h : entity.position.Fits) :
    (middleJson entity).WellFormed ∧ ∃ x y, fields? ["x", "y"] (middleJson entity) =
      some [some x, some y] ∧
      Coordinate.ofJson? x = some (.ofHalves (2 * entity.position.x +
        (entity.kind.footprint entity.direction).1)) ∧
      Coordinate.ofJson? y = some (.ofHalves (2 * entity.position.y +
        (entity.kind.footprint entity.direction).2)) := by
  obtain ⟨hwidth, hheight⟩ := entity.kind.footprint_le entity.direction
  have hx := h.x
  have hy := h.y
  have hreadX := Coordinate.reads_ofHalves
    (n := 2 * entity.position.x + (entity.kind.footprint entity.direction).1) (by omega)
  have hreadY := Coordinate.reads_ofHalves
    (n := 2 * entity.position.y + (entity.kind.footprint entity.direction).2) (by omega)
  refine ⟨wellFormed_ofMembers.2 (by simp [wellFormed_halves]), _, _, ?_, hreadX.read,
    hreadY.read⟩
  rw [middleJson, fields?_ofMembers (by simp)]
  simp [List.lookup_cons]

theorem reads_entityJson (hcoherent : Coherent blueprint) (hfits : blueprint.size < 2 ^ 64)
    {entity : Entity} (hentity : blueprint.entity? entity.id = some entity)
    (h : entity.Exchangeable) : ∃ json, blueprint.entityJson entity = .ok json ∧
      Reads EntityRecord.ofJson? json (blueprint.recordOf entity) := by
  obtain ⟨input, output, hinput, houtput, hwell, hconnections⟩ :=
    reads_sideFields hfits fun _ hlink => hasTerminal_of_mem_linksOf hcoherent hlink
  obtain ⟨control, hcontrol, hwellControl, hreadControl⟩ := reads_control h.condition
  obtain ⟨hwellMiddle, x, y, hmiddle, hx, hy⟩ := reads_middleJson h.position
  have hnumber : (nat (entity.id + 1)).natWithin? 64 = some (entity.id + 1) :=
    natWithin?_nat (by decide)
      (Nat.lt_of_le_of_lt (entity?_eq_some_iff.1 ⟨entity, hentity⟩) hfits)
  have hdirection : defaulted 0 (natWithin? 8)
      (if entity.direction = 0 then none else some (.nat entity.direction)) =
        some entity.direction := by
    split
    · next hzero => rw [hzero, defaulted_none]
    · exact natWithin?_nat (by decide)
        (Nat.lt_of_lt_of_le (hcoherent.direction hentity) (by decide))
  refine ⟨_, entityJson_eq hinput houtput hcontrol, ?_, ?_⟩
  · refine wellFormed_entityMembers (wellFormed_nat _) (wellFormed_text _) hwellMiddle ?_
    simp only [List.mem_cons, List.not_mem_nil, or_false]
    rintro _ (rfl | rfl | rfl) json hjson
    · split at hjson
      · cases hjson
      · cases hjson
        exact wellFormed_nat _
    · exact hwellControl json hjson
    · split at hjson
      · cases hjson
      · cases hjson
        exact hwell
  · simp only [EntityRecord.ofJson?, fields?_entityMembers, hmiddle, Option.bind_eq_bind,
      Option.bind_some, required_some, hnumber, text?_text, hx, hy, hdirection, hreadControl,
      hconnections]
    rfl

/-- A blueprint that a description can hold. Entity numbers are words of 64 bits. -/
structure Exchangeable (blueprint : Blueprint) : Prop where
  size : blueprint.size < 2 ^ 64
  entity : ∀ entity ∈ blueprint.entities, entity.Exchangeable

/-- The record that a blueprint is read as. -/
def record (blueprint : Blueprint) : BlueprintRecord where
  entities := blueprint.entities.toList.map blueprint.recordOf
  label := blueprint.label

theorem reads_entities (hcoherent : Coherent blueprint) (h : blueprint.Exchangeable) :
    ∃ entities, blueprint.entities.toList.mapM blueprint.entityJson = .ok entities ∧
      Reads (list? EntityRecord.ofJson?) (.array entities)
        (blueprint.entities.toList.map blueprint.recordOf) := by
  refine reads_list _ _ fun entity hentity => ?_
  have hmem : entity ∈ blueprint.entities := Array.mem_toList_iff.1 hentity
  obtain ⟨id, hid⟩ := Array.mem_iff_getElem?.1 hmem
  have heq := hcoherent.id hid
  subst heq
  exact reads_entityJson hcoherent h.size hid (h.entity entity hmem)

theorem reads_icon (id : SignalId) : Reads BlueprintRecord.checkIcon?
    (.ofMembers [("signal", id.toJson), ("index", .nat 1)]) () := by
  have hsignal := id.reads_toJson
  have hindex : (nat 1).natWithin? 32 = some 1 := natWithin?_nat (by decide) (by decide)
  refine .of_fields (by simp [hsignal.wellFormed, wellFormed_nat]) ?_
  rw [BlueprintRecord.checkIcon?, fields?_ofMembers (by simp)]
  simp [List.lookup_cons, hsignal.read, hindex]

theorem reads_toJson (hcoherent : Coherent blueprint) (h : blueprint.Exchangeable) :
    ∃ json, blueprint.toJson = .ok json ∧
      Reads BlueprintRecord.ofJson? json blueprint.record := by
  obtain ⟨entities, hentities, hreads⟩ := reads_entities hcoherent h
  have hicon := reads_icon ⟨"item", Kind.decider.text⟩
  generalize hjson : Json.ofMembers [("signal", (SignalId.mk "item" Kind.decider.text).toJson),
    ("index", .nat 1)] = icon at hicon
  have hicons : Reads (list? BlueprintRecord.checkIcon?) (.array [icon]) [()] :=
    ⟨wellFormed_array.2 (by simpa using hicon.wellFormed), by simp [list?, hicon.read]⟩
  have hversion : (nat gameVersion).natWithin? 64 = some gameVersion :=
    natWithin?_nat (by decide) (by decide)
  simp only [toJson, hentities, hjson]
  refine ⟨_, rfl, .of_fields ?_ ?_⟩
  · intro entry hentry
    rw [List.mem_singleton.1 hentry, wellFormed_ofMembers]
    cases blueprint.label <;>
      simp [hicons.wellFormed, hreads.wellFormed, wellFormed_text, wellFormed_nat]
  · have hlabel : ∀ label, Json.optional text? (some (.text label)) = some (some label) :=
      fun _ => rfl
    rw [BlueprintRecord.ofJson?, fields?_ofMembers (by simp), record]
    cases blueprint.label <;>
      simp [fields?_ofMembers, List.lookup_cons, hreads.read, hicons.read, hversion, hlabel]

end Blueprint

end CircuitScript
