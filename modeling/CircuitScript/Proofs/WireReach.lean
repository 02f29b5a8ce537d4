import CircuitScript.Proofs.Collision
import CircuitScript.Proofs.GateReaders
import CircuitScript.Proofs.RouteReach
/-!
The reach of wires. A program without conditionals is laid out in rows that have their lanes to
themselves, so its wires are short both ways. A condition turns away from its row, and its wires to
the row are measured along the row only: they are as long as the condition is.
-/
namespace CircuitScript

mutual

/-- A step, or a block of flat constructs. -/
def Node.Flat : Node → Prop
  | .chain _ body | .parallel _ body | .series _ body => FlatBody body
  | .step _ => True
  | _ => False

def FlatBody : List Node → Prop
  | [] => True
  | node :: rest => node.Flat ∧ FlatBody rest

end

variable {P : String → Prop} {context : Context} {node : Node} {body : List Node} {bound : Nat}

theorem flatBody_iff : FlatBody body ↔ ∀ node ∈ body, node.Flat := by
  induction body with
  | nil => simp [FlatBody]
  | cons node rest ih => simp [FlatBody, ih]

theorem bodyDepth_le (h : ∀ node ∈ body, node.depth ≤ bound) : bodyDepth body ≤ bound := by
  induction body with
  | nil => exact Nat.zero_le _
  | cons node rest ih =>
    rw [bodyDepth]
    exact Nat.max_le.mpr ⟨h node List.mem_cons_self,
      ih fun other ho => h other (List.mem_cons_of_mem _ ho)⟩

/-- How deep the constructs without conditionals in a context are. -/
def Context.levels : Context → Nat
  | script => 4
  | parallel => 2
  | series => 1
  | _ => 3

/-- Below a bound, members make a block below the next one. -/
theorem flat_block (h : ∀ node ∈ body, node.Flat ∧ node.depth ≤ bound) :
    FlatBody body ∧ bodyDepth body + 1 ≤ bound + 1 :=
  ⟨flatBody_iff.mpr fun node hm => (h node hm).1,
    Nat.succ_le_succ (bodyDepth_le fun node hm => (h node hm).2)⟩

theorem flat_step (step : Step) (bound : Nat) :
    (Node.step step).Flat ∧ (Node.step step).depth ≤ bound + 1 := ⟨trivial, Nat.le_add_left 1 bound⟩

theorem flat_series (scope : Scope) (steps : List Step) :
    (Node.series scope (steps.map .step)).Flat ∧
      (Node.series scope (steps.map .step)).depth ≤ 2 := by
  refine flat_block fun node hm => ?_
  obtain ⟨step, -, rfl⟩ := List.mem_map.mp hm
  exact flat_step step 0

theorem Node.IsAssignment.flat (h : node.IsAssignment P) : node.Flat ∧ node.depth ≤ 3 := by
  cases h with
  | @replacing scope inner target steps =>
    refine flat_block fun node hm => ?_
    simp only [CircuitScript.replacing, List.mem_cons, List.not_mem_nil, or_false] at hm
    rcases hm with rfl | rfl | rfl
    · exact flat_step _ 1
    · exact flat_series inner steps
    · exact flat_step _ 1
  | @scaling scope inner target k =>
    refine flat_block fun node hm => ?_
    simp only [CircuitScript.scaling, List.mem_cons, List.not_mem_nil, or_false] at hm
    rcases hm with rfl | rfl
    · exact flat_step _ 1
    · exact flat_series inner [_]

theorem conditionals_of_bodyConditionals (h : Layout.bodyConditionals body = []) :
    ∀ node ∈ body, Layout.conditionals node = [] := by
  induction body with
  | nil => simp
  | cons node rest ih =>
    rw [Layout.bodyConditionals, List.append_eq_nil_iff] at h
    simpa [h.1] using ih h.2

/-- What is read has no more than four levels where there is no conditional. -/
theorem Node.Shaped.flat (h : node.Shaped P context) (hc : Layout.conditionals node = []) :
    node.Flat ∧ node.depth ≤ context.levels := by
  induction h with
  | @step context step hsteps =>
    refine ⟨trivial, ?_⟩
    cases context <;> simp [Node.depth, Context.levels]
  | @assignment context node hsteps ha =>
    refine ⟨ha.flat.1, Nat.le_trans ha.flat.2 ?_⟩
    cases context <;> simp_all [Context.takesSteps, Context.levels]
  | conditional => simp [Layout.conditionals] at hc
  | chain _ ih | parallel _ ih | series _ ih =>
    exact flat_block fun node hm => ih node hm (conditionals_of_bodyConditionals hc node hm)

theorem Node.one_le_depth (node : Node) : 1 ≤ node.depth := by
  cases node <;> simp [Node.depth]

mutual

/-- A flat construct can be laid out where there are lanes for all its levels. -/
theorem Node.Flat.allowed {room : Nat} : {node : Node} → node.Flat → node.depth ≤ room + 1 →
    node.Allowed (.level room)
  | .chain _ _, h, hd => ⟨rfl, FlatBody.allowed h (Nat.le_of_succ_le_succ hd)⟩
  | .parallel _ _, h, hd | .series _ _, h, hd => FlatBody.allowed h (Nat.le_of_succ_le_succ hd)
  | .step _, _, _ => trivial
  | .compare .., h, _ | .and .., h, _ | .or .., h, _ | .conditional .., h, _ => h.elim

theorem FlatBody.allowed {room : Nat} : {body : List Node} → FlatBody body →
    bodyDepth body ≤ room → AllowedBody body (.level room)
  | [], _, _ => trivial
  | node :: rest, h, hd => by
    rw [bodyDepth] at hd
    refine ⟨.inr ?_, FlatBody.allowed h.2 (Nat.le_trans (Nat.le_max_right _ _) hd)⟩
    -- A member has levels of its own, so there is a lane left for it.
    have hone := node.one_le_depth
    obtain ⟨inner, rfl⟩ : ∃ inner, room = inner + 1 := ⟨room - 1, by omega⟩
    exact ⟨.level inner, rfl, Node.Flat.allowed h.1 (Nat.le_trans (Nat.le_max_left _ _) hd)⟩

end

namespace Layout

variable {α β : Type} {draft before after : Draft} {frame : Frame} {color : Color} {old : List Wire}
  {row : Int} {lanes room room' : Nat} {tile : Position} {condition : Condition} {feeds : List Feed}
  {ids ids' loose : List EntityId} {ends : α → List EntityId} {setting : Setting} {spec : Spec α}
  {action : Build α}

/-- Two tiles that are at most so many columns and rows apart. -/
def Within (columns rows : Nat) (p q : Position) : Prop :=
  (q - p).x.natAbs ≤ columns ∧ (q - p).y.natAbs ≤ rows

/-- A tile on one of the lanes above a row. -/
def OnLane (row : Int) (lanes : Nat) (tile : Position) : Prop :=
  row - lanes ≤ tile.y ∧ tile.y < row

/-- All wires but old ones are short, and no combinator lies on the lanes above a row. -/
structure Level (old : List Wire) (row : Int) (lanes : Nat) (draft : Draft) : Prop where
  grounded : draft.Grounded
  sound : draft.blueprint.Sound
  spans : ∀ wire ∈ draft.blueprint.wires, wire ∈ old ∨ draft.blueprint.Spans (Within 7 5) wire
  clear : ∀ {id entity}, draft.blueprint.entity? id = some entity → entity.kind ≠ .relay →
    ∀ tile ∈ entity.tiles, ¬ OnLane row lanes tile

theorem Level.not_blocked (h : Level old row lanes draft) (ht : OnLane row lanes tile) :
    blocked draft.blueprint draft.poles tile = false := by
  rw [← Bool.not_eq_true]
  intro hb
  simp only [blocked, Bool.and_eq_true, Option.any_eq_true] at hb
  obtain ⟨-, id, hfind, hrelay⟩ := hb
  obtain ⟨entity, he, hm⟩ := h.sound tile id hfind
  refine h.clear he ?_ tile hm ht
  intro hk
  simp [Blueprint.isRelay, he, hk] at hrelay

/-- On its lane a relay never has to give way. -/
theorem Level.openTile_eq (h : Level old row lanes draft) (ht : OnLane row lanes tile) :
    openTile draft frame tile = tile := by
  unfold openTile
  cases draft.blueprint.grid.entries.length with
  | zero => rfl
  | succ n => rw [firstOpen, if_neg (by simp [h.not_blocked ht])]

/-- A new entity that is a relay, or lies off the lanes. -/
theorem Level.push {new : Entity} (h : Level old row lanes before)
    (he : after.blueprint.entities = before.blueprint.entities.push new)
    (hw : after.blueprint.wires = before.blueprint.wires) (hg : after.Grounded)
    (hs : after.blueprint.Sound)
    (hn : new.kind ≠ .relay → ∀ tile ∈ new.tiles, ¬ OnLane row lanes tile) :
    Level old row lanes after where
  grounded := hg
  sound := hs
  spans := by
    rw [hw]
    exact fun wire hm => (h.spans wire hm).imp_right (·.grows (Blueprint.extends_push he hw).grows)
  clear := by
    intro id entity hentity
    rw [Blueprint.entity?, he, Array.getElem?_push] at hentity
    split at hentity
    · cases hentity
      exact hn
    · exact h.clear hentity

theorem Level.same (h : Level old row lanes before) (hb : after.blueprint = before.blueprint)
    (hg : after.Grounded) : Level old row lanes after :=
  ⟨hg, hb ▸ h.sound, hb ▸ h.spans, hb ▸ h.clear⟩

/-- The frame is a row at some height, and there are lanes for so many levels below it. -/
structure Frame.Lies (frame : Frame) (row : Int) (lanes room : Nat) : Prop where
  isRow : frame.IsRow
  start : frame.start.y = row
  room : frame.depth + room ≤ lanes
  few : lanes ≤ 5

theorem Frame.Lies.mono (h : frame.Lies row lanes room) (hr : room' ≤ room) :
    frame.Lies row lanes room' := by
  have hroom := h.room
  exact ⟨h.isRow, h.start, by omega, h.few⟩

theorem Frame.Lies.upright (h : frame.Lies row lanes room) : frame.Upright :=
  Frame.Aligned.upright (.inl h.isRow)

theorem Frame.Lies.spot_y (h : frame.Lies row lanes room) (grown : Int) :
    (frame.spot grown).y = row := by
  rw [h.isRow.spot]
  exact h.start

theorem Frame.Lies.inner {start : Position} {staysOn : Bool} (h : frame.Lies row lanes (room + 1))
    (hs : start.y = row) : (frame.inner start feeds false staysOn).Lies row lanes room := by
  refine ⟨h.isRow, hs, ?_, h.few⟩
  have hroom := h.room
  show frame.depth + 1 + room ≤ lanes
  omega

theorem level_routeInvariant (hf : frame.Lies row lanes (room + 1)) :
    RouteInvariant frame (·.y = row) (OnLane row lanes) (Level old row lanes) where
  grounded := Level.grounded
  sound := Level.sound
  lane := by
    intro tile steps ht
    have hroom := hf.room
    simp only [OnLane, Position.add_y, Position.scale, Position.turnRight, hf.isRow.1, ht]
    omega
  ahead := by
    intro tile steps ht
    simp only [OnLane, Position.add_y, Position.scale, hf.isRow.1, Int.zero_mul, Int.add_zero]
    exact ht
  opened := by
    intro draft tile h ht
    rwa [h.openTile_eq ht]
  relay := fun h _ _ => h.push Blueprint.entities_create rfl (grounded_relayOn h.grounded)
    (Blueprint.sound_create h.sound) (absurd rfl)
  link := by
    intro draft a b p q color h ha hb hp hq hr
    obtain ⟨sender, hsender, rfl⟩ := ha
    obtain ⟨receiver, hreceiver, rfl⟩ := hb
    have hreach := Nat.le_trans hr (reach_le frame.depth)
    have hfew := hf.few
    simp only [Position.along, hf.isRow.1, Int.mul_one, Int.mul_zero, Int.add_zero] at hreach
    -- Either end is in the row or on a lane, and there are no more than five lanes.
    have hclose : Within 7 5 sender.position receiver.position ∧
        Within 7 5 receiver.position sender.position := by
      simp only [OnLane] at hp hq
      simp only [Within, Position.sub_x, Position.sub_y] at hreach ⊢
      omega
    have hsame : ((link a b color).run draft).2.blueprint.entities = draft.blueprint.entities :=
      Blueprint.entities_connect.1
    refine ⟨(lays_link h.grounded).grounded, Blueprint.sound_connect h.sound, fun wire hm => ?_, ?_⟩
    · rcases Blueprint.spans_connect hm hsender hreceiver hclose.1 hclose.2 with hm | hspan
      · exact (h.spans wire hm).imp_right (·.grows Blueprint.grows_connect)
      · exact .inr hspan
    · intro id entity he
      rw [Blueprint.entity?, hsame] at he
      exact h.clear he
  note := fun _ h => h.same rfl ⟨h.grounded.indexed, h.grounded.poles, h.grounded.requests⟩

/-- Where some entities stand in a row, the action keeps the lanes above it clear and all new wires
short, and the entities that its result names stand in the row. -/
structure Levels (old : List Wire) (row : Int) (lanes : Nat) (ids : List EntityId)
    (ends : α → List EntityId) (action : Build α) : Prop where
  run : ∀ {draft : Draft}, Level old row lanes draft → (∀ id ∈ ids, draft.At id (·.y = row)) →
    Level old row lanes (action.run draft).2 ∧
    draft.blueprint.Extends (action.run draft).2.blueprint ∧
    ∀ id ∈ ends (action.run draft).1, (action.run draft).2.At id (·.y = row)

namespace Levels

theorem mono (h : Levels old row lanes ids ends action) (hs : ids ⊆ ids') :
    Levels old row lanes ids' ends action :=
  ⟨fun hl hi => h.run hl fun id hid => hi id (hs hid)⟩

theorem pure {a : α} (h : ends a ⊆ ids) : Levels old row lanes ids ends (Pure.pure a) :=
  ⟨fun hl hi => ⟨hl, .refl _, fun id hid => hi id (h hid)⟩⟩

theorem bind {next : α → Build β} {ends' : β → List EntityId} (h : Levels old row lanes ids ends action)
    (h' : ∀ a, Levels old row lanes (ends a ++ ids) ends' (next a)) :
    Levels old row lanes ids ends' (action >>= next) := by
  constructor
  intro draft hl hi
  obtain ⟨hfirst, hextend, hends⟩ := h.run hl hi
  obtain ⟨hsecond, hextend', hends'⟩ := (h' _).run hfirst fun id hid => by
    rcases List.mem_append.mp hid with hid | hid
    · exact hends id hid
    · exact (hi id hid).extends hextend
  exact ⟨hsecond, hextend.trans hextend', hends'⟩

/-- An action without a result, and then another one. -/
theorem seq {first : Build Unit} (h : Levels old row lanes ids (fun _ => []) first)
    (h' : Levels old row lanes ids ends action) :
    Levels old row lanes ids ends (first >>= fun _ => action) :=
  h.bind fun _ => h'

/-- An action that leaves all entities and wires alone. -/
theorem of_note (hb : ∀ draft, (action.run draft).2.blueprint = draft.blueprint)
    (hg : ∀ {draft}, draft.Grounded → draft.Knows ids → (action.run draft).2.Grounded) :
    Levels old row lanes ids (fun _ => []) action := by
  constructor
  intro draft hl hi
  refine ⟨hl.same (hb draft) (hg hl.grounded fun id hid => (hi id hid).lt), ?_, by simp⟩
  rw [hb]
  exact .refl _

theorem forM {items : List α} {f : α → Build Unit}
    (h : ∀ item ∈ items, Levels old row lanes ids (fun _ => []) (f item)) :
    Levels old row lanes ids (fun _ => []) (items.forM f) := by
  induction items with
  | nil => exact .pure (by simp)
  | cons item rest ih =>
    exact (h item List.mem_cons_self).seq (ih fun other ho => h other (List.mem_cons_of_mem _ ho))

end Levels

theorem levels_route {first second : Terminal} (hf : frame.Lies row lanes (room + 1))
    (ha : first.entity ∈ ids) (hb : second.entity ∈ ids) :
    Levels old row lanes ids (fun _ => []) (route frame first second color) := by
  constructor
  intro draft hl hi
  have hfirst := hi _ ha
  have hsecond := hi _ hb
  exact ⟨(level_routeInvariant hf).route hf.upright hl hfirst hsecond color,
    strokes_extends (route_strokes_anywhere hl.grounded hl.sound hf.upright hfirst.lt hsecond.lt
      color), by simp⟩

theorem levels_relay (ht : tile.y = row) :
    Levels old row lanes ids (fun id => [id]) (put .relay tile) := by
  constructor
  intro draft hl _
  refine ⟨hl.push Blueprint.entities_create rfl (act_grounded (.relay draft tile) hl.grounded)
    (Blueprint.sound_create hl.sound) (absurd rfl),
    Blueprint.extends_push Blueprint.entities_create rfl, fun id hid => ?_⟩
  rw [List.mem_singleton.mp hid]
  exact at_put.imp fun place hp => hp ▸ ht

/-- Whatever is done where the row has grown to is done in the row. -/
theorem levels_here {next : Position → Build α} (hf : frame.Lies row lanes room)
    (h : ∀ tile : Position, tile.y = row → Levels old row lanes ids ends (next tile)) :
    Levels old row lanes ids ends (here frame >>= next) :=
  ⟨fun {draft} hl hi => (h (frame.spot draft.grown) (hf.spot_y _)).run hl hi⟩

/-- A combinator reaches downwards from its row. -/
theorem levels_bare (hf : frame.Lies row lanes room) :
    Levels old row lanes ids (fun id => [id]) (bare frame condition feeds) := by
  constructor
  intro draft hl _
  obtain ⟨hid, -⟩ := @bare_new draft frame condition feeds
  have hsound := act_sound (.stand draft frame condition feeds) hl.grounded hl.sound
  refine ⟨hl.push entities_bare wires_bare (grounded_bare hl.grounded) hsound ?_,
    Blueprint.extends_push entities_bare wires_bare, fun id hm => ?_⟩
  · intro _ tile ht hlane
    have hbelow := (mem_rectangle ht).2.1
    have hrow : ((here frame).run draft).1.y = row := hf.spot_y _
    have habove := hlane.2
    dsimp only at hbelow
    omega
  · rw [List.mem_singleton.mp hm, hid]
    exact ⟨_, entity?_bare, hf.spot_y _⟩

theorem levels_readFeed {id : EntityId} {feed : Feed} (hf : frame.Lies row lanes (room + 1))
    (hid : id ∈ ids) (hs : Feed.entities [feed] ⊆ ids) :
    Levels old row lanes ids (fun _ => []) (readFeed frame id feed) := by
  cases feed with
  | request slot => exact .of_note (fun _ => rfl) fun hg hk => grounded_request hg (hk id hid)
  | entity other =>
    constructor
    intro draft hl hi
    rw [run_readFeed_entity]
    exact (levels_route hf hid (hs (by simp [Feed.entities]))).run hl hi

theorem levels_place (hf : frame.Lies row lanes (room + 1)) (hs : Feed.entities feeds ⊆ ids) :
    Levels old row lanes ids (fun id => [id]) (place frame condition feeds) := by
  rw [place_eq]
  refine .bind (levels_bare hf) fun id => ?_
  refine .seq (.forM fun feed hm => levels_readFeed hf (by simp) fun other ho => ?_) ?_
  · exact List.mem_append_right _ (hs (mem_entities hm ho))
  · refine .seq (.of_note (fun _ => rfl) fun hg _ => ?_) (.pure (by simp))
    exact ⟨hg.indexed, hg.poles, hg.requests⟩

theorem levels_descend {staysOn : Bool} {build : Frame → Build (List EntityId)}
    (hf : frame.Lies row lanes room)
    (h : ∀ start : Position, start.y = row → Levels old row lanes ids id
      (build (frame.inner start feeds false staysOn))) :
    Levels old row lanes ids id (descend frame feeds false staysOn build) := by
  constructor
  intro draft hl hi
  rw [run_descend, run_here]
  dsimp only
  have hstart : Level old row lanes { draft with grown := 0, poles := [] } :=
    hl.same rfl ⟨hl.grounded.indexed, by simp, hl.grounded.requests⟩
  obtain ⟨hlevel, hextend, hends⟩ := (h (frame.spot draft.grown) (hf.spot_y _)).run hstart hi
  generalize (build (frame.inner (frame.spot draft.grown) feeds false staysOn)).run
    { draft with grown := 0, poles := [] } = inner at hlevel hextend hends ⊢
  refine ⟨hlevel.same rfl ⟨hlevel.grounded.indexed, fun pole hp => ?_, hlevel.grounded.requests⟩,
    hextend, hends⟩
  exact hextend.grows.isRelay_of_isRelay (hl.grounded.poles pole hp)

/-- A plan for a row with lanes for its levels stays in the row. -/
theorem Plan.levels (h : Plan setting frame ids loose ends spec action) :
    ∀ {room}, setting = .level room → frame.Lies row lanes (room + 1) →
      Levels old row lanes (ids ++ loose) ends action := by
  induction h with
  | imp _ _ ih => exact ih
  | mono _ hs hl ih =>
    exact fun he hf => (ih he hf).mono (List.append_subset.mpr
      ⟨List.subset_append_of_subset_left _ hs, List.subset_append_of_subset_right _ hl⟩)
  | pure h => exact fun _ _ => .pure (List.subset_append_of_subset_left _ h)
  | bind _ _ ih ih' =>
    intro room he hf
    refine (ih he hf).bind fun a => ?_
    rw [← List.append_assoc]
    exact ih' a he hf
  | announce node =>
    exact fun _ _ => .of_note (fun _ => rfl) fun hg _ => ⟨hg.indexed, hg.poles, hg.requests⟩
  | readsRelay hs => exact fun _ _ => .of_note (fun _ => rfl) fun hg _ => hg
  | head hc =>
    intro room he hf
    refine levels_relay ?_
    rw [Position.sub_y, hf.isRow.1, hf.start]
    exact Int.sub_zero row
  | tail hc => exact fun _ hf => levels_here hf fun tile ht => levels_relay ht
  | place hs => exact fun _ hf => levels_place hf (List.subset_append_of_subset_left _ hs)
  | route ha hb => exact fun _ hf => levels_route hf ha hb
  | descend hi _ ih =>
    rintro (_ | room) rfl hf
    · cases hi
    · cases hi
      exact levels_descend hf fun start hs => ih start rfl (hf.inner hs)
  -- There are no conditions in such a row.
  | test hi =>
    rintro room rfl
    cases hi
  | slot hi =>
    rintro room rfl
    cases hi

/-- A construct of a program starts so far down that its lanes are clear. -/
theorem level_start {node : Node} (hg : draft.Grounded) (hs : draft.blueprint.Sound) :
    Level draft.blueprint.wires (startBelow draft.blueprint node).y (node.depth + 1)
      { draft with grown := 0, poles := [] } where
  grounded := ⟨hg.indexed, by simp, hg.requests⟩
  sound := hs
  spans := fun _ => .inl
  clear := by
    -- All that stands already ends above the lanes, whatever it is.
    intro id entity he _ tile ht hlane
    have hmem : entity ∈ draft.blueprint.entities.toList :=
      Array.mem_toList_iff.mpr (Array.mem_of_getElem? he)
    have habove := @lanes_startBelow draft.blueprint node tile
      (List.mem_flatMap.mpr ⟨entity, hmem, ht⟩)
    have hlow := hlane.1
    omega

/-- The wires that a flat construct of a program draws are short. -/
theorem spans_lower {node : Node} {wire : Wire} (hg : draft.Grounded) (hs : draft.blueprint.Sound)
    (hn : node.Flat) (hd : node.depth ≤ 4)
    (hw : wire ∈ ((lowerAll [node]).run draft).2.blueprint.wires) :
    wire ∈ draft.blueprint.wires ∨
      ((lowerAll [node]).run draft).2.blueprint.Spans (Within 7 5) wire := by
  rw [run_lowerAll_cons] at hw ⊢
  obtain ⟨room, hroom⟩ : ∃ room, node.depth = room + 1 :=
    ⟨node.depth - 1, (Nat.sub_add_cancel node.one_le_depth).symm⟩
  have hlies : (Frame.outermost (startBelow draft.blueprint node)).Lies
      (startBelow draft.blueprint node).y (node.depth + 1) (room + 1) :=
    ⟨⟨rfl, rfl⟩, rfl, by rw [hroom, Nat.add_comm]; rfl, Nat.succ_le_succ hd⟩
  have hplan := plan_lower (.outermost (startBelow draft.blueprint node)) (.level room) node
    (hn.allowed (Nat.le_of_eq hroom))
  obtain ⟨hlevel, -, -⟩ := (hplan.levels rfl hlies).run (level_start hg hs)
    (by simp [Frame.outermost, Feed.entities])
  exact hlevel.spans wire hw

end Layout

namespace Script

open Layout

variable {script : Script} {i : Nat} {node : Node} {wire : Wire}

/-- The program of the first constructs. -/
def firsts (script : Script) (n : Nat) : Script := { script with body := script.body.take n }

theorem draft_firsts_succ (h : script.body[i]? = some node) :
    (script.firsts (i + 1)).draft.2 = ((lowerAll [node]).run (script.firsts i).draft.2).2 := by
  have hbody : script.body.take (i + 1) = script.body.take i ++ [node] := by
    rw [List.take_add_one, h]
    rfl
  show ((lowerAll (script.body.take (i + 1))).run .empty).2 = _
  rw [hbody]
  exact run_lowerAll_append _ _

/-- What the first constructs have put down and wired stays. -/
theorem grows_firsts (script : Script) (n : Nat) :
    (script.firsts n).lower.blueprint.Grows script.lower.blueprint := by
  have hbody : script.draft.2 =
      ((lowerAll (script.body.drop n)).run (script.firsts n).draft.2).2 := by
    have happend := @run_lowerAll_append .empty (script.body.take n) (script.body.drop n)
    rwa [List.take_append_drop] at happend
  show (script.firsts n).draft.2.blueprint.Grows script.draft.2.blueprint
  rw [hbody]
  have hg := (taut_draft (script.firsts n)).grounded
  exact acts_grows ((builds_lowerAll (script.body.drop n)).run hg (by simp [Draft.Knows])).1 hg

/-- Every wire is drawn by some construct. -/
theorem exists_firsts (n : Nat) (hw : wire ∈ (script.firsts n).lower.blueprint.wires) :
    ∃ i < n, wire ∈ (script.firsts (i + 1)).lower.blueprint.wires ∧
      wire ∉ (script.firsts i).lower.blueprint.wires := by
  induction n with
  | zero => exact absurd hw List.not_mem_nil
  | succ n ih =>
    by_cases hn : wire ∈ (script.firsts n).lower.blueprint.wires
    · obtain ⟨i, hi, hdrawn⟩ := ih hn
      exact ⟨i, Nat.lt_succ_of_lt hi, hdrawn⟩
    · exact ⟨n, Nat.lt_succ_self n, hw, hn⟩

/-- The wires that a construct without conditionals draws are short. -/
theorem spans_of_drawn {source : String} (h : parse source = .ok script)
    (hi : script.body[i]? = some node) (hc : conditionals node = [])
    (hw : wire ∈ (script.firsts (i + 1)).lower.blueprint.wires)
    (hn : wire ∉ (script.firsts i).lower.blueprint.wires) :
    script.lower.blueprint.Spans (Within 7 5) wire := by
  obtain ⟨hflat, hdepth⟩ := (shaped_of_parse nameRule_true h node (List.mem_of_getElem? hi)).flat hc
  have htaut := taut_draft (script.firsts i)
  have hgrows := grows_firsts script (i + 1)
  have hdraft := draft_firsts_succ hi
  rw [show (script.firsts (i + 1)).lower.blueprint = (script.firsts (i + 1)).draft.2.blueprint
    from rfl, hdraft] at hw hgrows
  rcases spans_lower htaut.grounded htaut.sound hflat hdepth hw with hold | hspan
  · exact absurd hold hn
  · exact hspan.grows hgrows

/-- Every wire of a program that is read is at most seven tiles long along one of the axes. No wire
that is drawn for a construct without conditionals spans more than seven columns or five rows, so in
a program without conditionals all wires are within reach. -/
theorem lower_wires_short {source : String} {script : Script} (h : parse source = .ok script) :
    (∀ wire ∈ script.lower.blueprint.wires, script.lower.blueprint.Spans NearOnAxis wire) ∧
    (∀ i node, script.body[i]? = some node → conditionals node = [] →
      ∀ wire ∈ (script.firsts (i + 1)).lower.blueprint.wires,
        wire ∉ (script.firsts i).lower.blueprint.wires →
          script.lower.blueprint.Spans (Within 7 5) wire) ∧
    (bodyConditionals script.body = [] →
      ∀ wire ∈ script.lower.blueprint.wires, script.lower.blueprint.Spans (Within 7 5) wire) := by
  refine ⟨(taut_draft script).spans, fun i node hi hc wire => spans_of_drawn h hi hc,
    fun hc wire hw => ?_⟩
  have hall : script.firsts script.body.length = script := by
    rw [firsts, List.take_length]
  obtain ⟨i, hi, hdrawn, hnew⟩ := @exists_firsts script wire script.body.length (hall.symm ▸ hw)
  have hnode := List.getElem?_eq_getElem hi
  exact spans_of_drawn h hnode
    (conditionals_of_bodyConditionals hc _ (List.mem_of_getElem? hnode)) hdrawn hnew

/-- A row that is too long for a single wire. -/
def longRow : String :=
  "chain \x7b parallel \x7b a=1\nb=2\nc=3\nd=4\ne=5\nf=6\ng=7\nh=8 \x7d \x7d"

theorem lower_wires_short_longRow :
    ∃ script, parse longRow = .ok script ∧ script.lower.blueprint.size = 12 ∧
      (∀ wire ∈ script.lower.blueprint.wires, script.lower.blueprint.Spans NearOnAxis wire) ∧
      ∀ wire ∈ script.lower.blueprint.wires, script.lower.blueprint.Spans (Within 7 5) wire := by
  have hread : ∃ script, parse longRow = .ok script ∧
      (script.lower.blueprint.size = 12 ∧ bodyConditionals script.body = []) :=
    exists_parse (by decide +kernel)
  obtain ⟨script, hparse, hsize, hc⟩ := hread
  obtain ⟨haxis, -, hshort⟩ := lower_wires_short hparse
  exact ⟨script, hparse, hsize, haxis, hshort hc⟩

/-- Five names that all have to hold. -/
def longCondition : String := "if a && b && c && d && e \x7b \x7d"

/-- A wire reaches nine tiles, but the one from a long condition to its gate spans ten rows. -/
theorem longCondition_out_of_reach : ∃ script, parse longCondition = .ok script ∧
    ∃ wire ∈ script.lower.blueprint.wires, ¬ script.lower.blueprint.Spans (Within 9 9) wire := by
  have hread : ∃ script, parse longCondition = .ok script ∧
      (⟨⟨10, .output⟩, ⟨13, .input⟩, .red⟩ ∈ script.lower.blueprint.wires ∧
        (script.lower.blueprint.entity? 10).map (·.position) = some ⟨0, 10⟩ ∧
        (script.lower.blueprint.entity? 13).map (·.position) = some ⟨5, 0⟩) :=
    exists_parse (by decide +kernel)
  obtain ⟨script, hparse, hwire, hlast, hgate⟩ := hread
  refine ⟨script, hparse, _, hwire, ?_⟩
  rintro ⟨a, b, ha, hb, -, hrows⟩
  rw [ha] at hlast
  rw [hb] at hgate
  have hlast : a.position = ⟨0, 10⟩ := Option.some.inj hlast
  have hgate : b.position = ⟨5, 0⟩ := Option.some.inj hgate
  rw [hlast, hgate] at hrows
  exact absurd hrows (by decide)

end Script

end CircuitScript
