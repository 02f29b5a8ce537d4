import CircuitScript.Proofs.Realization
/-!
How a program is laid out, in rules. A plan says of an action in the frame of a construct which
entities it may name, which entities its result names, and what holds of the entities that it adds.
The walk over the program is made here, once: every construct follows a plan. What a plan means is
proved for each rule where it is needed.
-/
namespace CircuitScript

namespace Layout

/-- What is known of the place where a construct is laid out. -/
inductive Setting
  | anywhere
  /-- In a row, with nothing ahead of it. -/
  | row
  /-- In a condition, below its row. -/
  | column
  /-- In a row with lanes for so many levels inside the construct. -/
  | level (room : Nat)
  deriving DecidableEq, Repr, Inhabited

namespace Setting

/-- The place of a member that grows the same way. -/
def inner? : Setting → Option Setting
  | level 0 => none
  | level (room + 1) => some (level room)
  | setting => some setting

/-- The place of a condition, which turns away. -/
def turned? : Setting → Option Setting
  | anywhere => some anywhere
  | row => some column
  | _ => none

/-- A chain, with the relays at its ends, can be laid out. -/
def takesChains : Setting → Bool
  | anywhere | level _ => true
  | _ => false

end Setting

end Layout

open Layout (Setting)

mutual

/-- The construct can be laid out in a setting. -/
def Node.Allowed : Node → Setting → Prop
  | .chain _ body, setting => setting.takesChains = true ∧ AllowedBody body setting
  | .parallel _ body, setting | .series _ body, setting => AllowedBody body setting
  | .conditional _ _ test _ body, setting =>
    (∃ inner ∈ setting.turned?, test.Allowed inner) ∧ AllowedBody body setting
  | .compare _ _ left right _, setting => left.Allowed setting ∧ right.Allowed setting
  | .and _ body _, setting | .or _ body _, setting =>
    ∃ inner ∈ setting.inner?, AllowedMembers body inner
  | .step _, _ => True

/-- The members of a body: a step stands in the frame of the body, any other one in its own. -/
def AllowedBody : List Node → Setting → Prop
  | [], _ => True
  | node :: rest, setting =>
    ((∃ step, node = .step step) ∨ ∃ inner ∈ setting.inner?, node.Allowed inner) ∧
      AllowedBody rest setting

def AllowedMembers : List Node → Setting → Prop
  | [], _ => True
  | node :: rest, setting => node.Allowed setting ∧ AllowedMembers rest setting

def Side.Allowed : Side → Setting → Prop
  | .value _, _ => True
  | .series _ body, setting => ∃ inner ∈ setting.inner?, AllowedBody body inner

end

mutual

/-- Somewhere every construct can be laid out. -/
theorem Node.allowed_anywhere : (node : Node) → node.Allowed .anywhere
  | .chain _ body => ⟨rfl, allowedBody_anywhere body⟩
  | .parallel _ body | .series _ body => allowedBody_anywhere body
  | .conditional _ _ test _ body =>
    ⟨⟨.anywhere, rfl, test.allowed_anywhere⟩, allowedBody_anywhere body⟩
  | .compare _ _ left right _ => ⟨left.allowed_anywhere, right.allowed_anywhere⟩
  | .and _ body _ | .or _ body _ => ⟨.anywhere, rfl, allowedMembers_anywhere body⟩
  | .step _ => trivial

theorem allowedBody_anywhere : (body : List Node) → AllowedBody body .anywhere
  | [] => trivial
  | node :: rest => ⟨.inr ⟨.anywhere, rfl, node.allowed_anywhere⟩, allowedBody_anywhere rest⟩

theorem allowedMembers_anywhere : (body : List Node) → AllowedMembers body .anywhere
  | [] => trivial
  | node :: rest => ⟨node.allowed_anywhere, allowedMembers_anywhere rest⟩

theorem Side.allowed_anywhere : (side : Side) → side.Allowed .anywhere
  | .value _ => trivial
  | .series _ body => ⟨.anywhere, rfl, allowedBody_anywhere body⟩

end

namespace Layout

variable {α β : Type} {setting inner : Setting} {frame : Frame} {color : Color}
  {condition : Condition} {feeds : List Feed} {ids ids' loose loose' : List EntityId}
  {ends : α → List EntityId} {action : Build α}

/-- What holds of a blueprint, the number of open slots, the number of the next entity, the entities
that are added, and a result. -/
abbrev Spec (α : Type) : Type := Blueprint → Nat → Nat → Inventory → α → Prop

namespace Spec

/-- Nothing is added. -/
def still (P : Blueprint → α → Prop) : Spec α := fun blueprint _ _ inventory a =>
  inventory = .relays 0 ∧ P blueprint a

/-- Only relays are added. -/
def relayed (P : Blueprint → α → Prop) : Spec α := fun blueprint _ _ inventory a =>
  (∃ n, inventory = .relays n) ∧ P blueprint a

/-- One relay is added, and is the result. -/
def relay : Spec EntityId := fun blueprint _ first inventory id =>
  id = first ∧ inventory = .relays 1 ∧ blueprint.isRelay id = true

/-- One combinator is added, with the relays of its routes, and is the result. -/
def placed (condition : Condition) (feeds : List Feed) : Spec EntityId :=
  fun blueprint slots first inventory id => id = first ∧
    (∃ n, inventory = .single slots condition feeds first n) ∧
    blueprint.Works ⟨id, feeds⟩ condition

/-- What a second action adds is numbered behind what the first one adds. -/
def andThen (spec : Spec α) (next : α → Spec β) : Spec β := fun blueprint slots first inventory b =>
  ∃ a one two, inventory = one ++ two ∧ spec blueprint slots first one a ∧
    next a blueprint slots (first + one.size) two b

/-- A slot is open meanwhile, and is closed with the readers in what was added. -/
def slotted (spec : Nat → Spec α) (next : α → List EntityId → Spec β) : Spec β :=
  fun blueprint slots first inventory b =>
    ∃ a one two, inventory = one ++ (.closing slots (collected slots one.placed) ++ two) ∧
      spec slots blueprint (slots + 1) first one a ∧
      next a (collected slots one.placed) blueprint slots (first + one.size) two b

end Spec

/-- An action follows a plan in the frame of a construct. It may name the entities `ids` and, in
routes only, the entities `loose`, which hang below the row or stand further back in it; its result
names `ends`; and what it adds is as `spec` says. -/
inductive Plan : Setting → Frame → List EntityId → List EntityId → {α : Type} →
    (α → List EntityId) → Spec α → Build α → Prop
  | imp {setting : Setting} {frame : Frame} {ids loose : List EntityId} {α : Type}
      {ends : α → List EntityId} {spec spec' : Spec α} {action : Build α}
      (h : Plan setting frame ids loose ends spec action)
      (hi : ∀ blueprint slots first inventory a,
        spec blueprint slots first inventory a → spec' blueprint slots first inventory a) :
      Plan setting frame ids loose ends spec' action
  | mono {setting : Setting} {frame : Frame} {ids ids' loose loose' : List EntityId} {α : Type}
      {ends : α → List EntityId} {spec : Spec α} {action : Build α}
      (h : Plan setting frame ids loose ends spec action) (hs : ids ⊆ ids') (hl : loose ⊆ loose') :
      Plan setting frame ids' loose' ends spec action
  | pure {setting : Setting} {frame : Frame} {ids loose : List EntityId} {α : Type}
      {ends : α → List EntityId} {a : α} (h : ends a ⊆ ids) :
      Plan setting frame ids loose ends (.still fun _ result => result = a) (Pure.pure a)
  | bind {setting : Setting} {frame : Frame} {ids loose : List EntityId} {α β : Type}
      {ends : α → List EntityId} {ends' : β → List EntityId} {spec : Spec α} {spec' : α → Spec β}
      {action : Build α} {next : α → Build β} (h : Plan setting frame ids loose ends spec action)
      (h' : ∀ a, Plan setting frame (ends a ++ ids) loose ends' (spec' a) (next a)) :
      Plan setting frame ids loose ends' (spec.andThen spec') (action >>= next)
  | announce {setting : Setting} {frame : Frame} {ids loose : List EntityId} (node : Node) :
      Plan setting frame ids loose (fun _ => []) (.still fun _ _ => True) (announce frame node)
  | readsRelay {setting : Setting} {frame : Frame} {ids loose : List EntityId} {feeds : List Feed}
      (hs : Feed.entities feeds ⊆ ids) :
      Plan setting frame ids loose (fun _ => [])
        (.still fun blueprint relayed => relayed = (Feed.entities feeds).any blueprint.isRelay)
        (readsRelay feeds)
  /-- The head of a chain. -/
  | head {setting : Setting} {frame : Frame} {ids loose : List EntityId}
      (hc : setting.takesChains = true) :
      Plan setting frame ids loose (fun id => [id]) .relay
        (put .relay (frame.start - frame.direction))
  /-- The tail of a chain. -/
  | tail {setting : Setting} {frame : Frame} {ids loose : List EntityId}
      (hc : setting.takesChains = true) :
      Plan setting frame ids loose (fun id => [id]) .relay (here frame >>= put .relay)
  | place {setting : Setting} {frame : Frame} {ids loose : List EntityId} {condition : Condition}
      {feeds : List Feed} (hs : Feed.entities feeds ⊆ ids) :
      Plan setting frame ids loose (fun id => [id]) (.placed condition feeds)
        (place frame condition feeds)
  | route {setting : Setting} {frame : Frame} {ids loose : List EntityId} {first second : Terminal}
      {color : Color} (ha : first.entity ∈ ids ++ loose) (hb : second.entity ∈ ids ++ loose) :
      Plan setting frame ids loose (fun _ => [])
        (.relayed fun blueprint _ => blueprint.Linked color first second)
        (route frame first second color)
  /-- A member that grows the same way. -/
  | descend {setting inner : Setting} {frame : Frame} {ids loose : List EntityId}
      {feeds : List Feed} {staysOn : Bool} {spec : Spec (List EntityId)}
      {build : Frame → Build (List EntityId)} (hi : inner ∈ setting.inner?)
      (h : ∀ start, Plan inner (frame.inner start feeds false staysOn) ids loose id spec
        (build (frame.inner start feeds false staysOn))) :
      Plan setting frame ids loose id spec (descend frame feeds false staysOn build)
  /-- A condition, the ends of which are only good for routes. -/
  | test {setting inner : Setting} {frame : Frame} {ids loose : List EntityId} {feeds : List Feed}
      {staysOn : Bool} {β : Type} {spec : Spec (List EntityId)} {spec' : List EntityId → Spec β}
      {ends' : β → List EntityId} {build : Frame → Build (List EntityId)}
      {next : List EntityId → Build β} (hi : inner ∈ setting.turned?)
      (h : ∀ start, Plan inner (frame.inner start feeds true staysOn) ids [] id spec
        (build (frame.inner start feeds true staysOn)))
      (h' : ∀ test, Plan setting frame ids (test ++ loose) ends' (spec' test) (next test)) :
      Plan setting frame ids loose ends' (spec.andThen spec')
        (descend frame feeds true staysOn build >>= next)
  /-- A part of a construct, while a slot is open for the readers of its gate. -/
  | slot {setting : Setting} {frame : Frame} {ids loose : List EntityId} {α β : Type}
      {ends : α → List EntityId} {ends' : β → List EntityId} {spec : Nat → Spec α}
      {spec' : α → List EntityId → Spec β} {body : Nat → Build α}
      {next : α → List EntityId → Build β} (hi : setting.turned?.isSome = true)
      (h : ∀ slot, Plan setting frame ids loose ends (spec slot) (body slot))
      (h' : ∀ a readers, Plan setting frame (ends a ++ ids) (readers ++ loose) ends'
        (spec' a readers) (next a readers)) :
      Plan setting frame ids loose ends' (.slotted spec spec')
        (do
          let slot ← openSlot
          let a ← body slot
          let readers ← closeSlot
          next a readers)

namespace Plan

variable {spec : Spec α}

/-- An action that adds nothing, and then another one. -/
theorem after {P : Blueprint → α → Prop} {next : α → Build β} {ends' : β → List EntityId}
    {spec' : α → Spec β} (h : Plan setting frame ids loose ends (.still P) action)
    (h' : ∀ a, Plan setting frame (ends a ++ ids) loose ends' (spec' a) (next a)) :
    Plan setting frame ids loose ends'
      (fun blueprint slots first inventory b =>
        ∃ a, P blueprint a ∧ spec' a blueprint slots first inventory b)
      (action >>= next) := by
  refine (h.bind h').imp ?_
  rintro blueprint slots first _ b ⟨a, _, rest, rfl, ⟨rfl, hP⟩, hs⟩
  exact ⟨a, hP, hs⟩

theorem announced {node : Node} (h : Plan setting frame ids loose ends spec action) :
    Plan setting frame ids loose ends spec (Layout.announce frame node >>= fun _ => action) := by
  refine ((announce node).after fun _ => h).imp ?_
  rintro blueprint slots first inventory a ⟨-, -, hs⟩
  exact hs

/-- An action, and then a result that is made of its result. -/
theorem map {f : α → β} {ends' : β → List EntityId}
    (h : Plan setting frame ids loose ends spec action) (hf : ∀ a, ends' (f a) ⊆ ends a ++ ids) :
    Plan setting frame ids loose ends'
      (fun blueprint slots first inventory b =>
        ∃ a, b = f a ∧ spec blueprint slots first inventory a)
      (action >>= fun a => Pure.pure (f a)) := by
  refine (h.bind fun a => .pure (hf a)).imp ?_
  rintro blueprint slots first _ b ⟨a, one, _, rfl, hs, rfl, hb⟩
  rw [Inventory.append_relays_zero]
  exact ⟨a, hb, hs⟩

/-- Routes, and then another action. -/
theorem seq {P : Blueprint → Prop} {routes : Build Unit}
    (h : Plan setting frame ids loose (fun _ => []) (.relayed fun blueprint _ => P blueprint) routes)
    (h' : Plan setting frame ids loose ends spec action) :
    Plan setting frame ids loose ends
      (fun blueprint slots first inventory a => ∃ n rest, inventory = .relays n ++ rest ∧
        P blueprint ∧ spec blueprint slots (first + n) rest a)
      (routes >>= fun _ => action) := by
  refine (h.bind fun _ => h').imp ?_
  rintro blueprint slots first _ a ⟨_, _, rest, rfl, ⟨⟨n, rfl⟩, hP⟩, hs⟩
  rw [Inventory.size_relays] at hs
  exact ⟨n, rest, rfl, hP, hs⟩

/-- Routes, and then an action that adds only relays as well. -/
theorem seq_relayed {P : Blueprint → Prop} {Q : Blueprint → α → Prop} {routes : Build Unit}
    (h : Plan setting frame ids loose (fun _ => []) (.relayed fun blueprint _ => P blueprint) routes)
    (h' : Plan setting frame ids loose ends (.relayed Q) action) :
    Plan setting frame ids loose ends (.relayed fun blueprint a => P blueprint ∧ Q blueprint a)
      (routes >>= fun _ => action) := by
  refine (h.seq h').imp ?_
  rintro blueprint slots first _ a ⟨m, _, rfl, hP, ⟨n, rfl⟩, hQ⟩
  exact ⟨⟨m + n, Inventory.relays_append m n⟩, hP, hQ⟩

theorem pure_relayed {a : α} (h : ends a ⊆ ids) :
    Plan setting frame ids loose ends (.relayed fun _ result => result = a) (Pure.pure a) :=
  (pure h).imp fun _ _ _ _ _ hs => ⟨⟨0, hs.1⟩, hs.2⟩

theorem forM {items : List α} {f : α → Build Unit} {P : α → Blueprint → Prop}
    (h : ∀ item ∈ items, Plan setting frame ids loose (fun _ => [])
      (.relayed fun blueprint _ => P item blueprint) (f item)) :
    Plan setting frame ids loose (fun _ => [])
      (.relayed fun blueprint _ => ∀ item ∈ items, P item blueprint) (items.forM f) := by
  induction items with
  | nil => exact (pure_relayed (List.nil_subset ids)).imp fun _ _ _ _ _ hs => ⟨hs.1, by simp⟩
  | cons item rest ih =>
    have hrest := ih fun other ho => h other (List.mem_cons_of_mem _ ho)
    refine ((h item List.mem_cons_self).seq_relayed hrest).imp ?_
    rintro blueprint slots first inventory a ⟨hrelays, hitem, hall⟩
    exact ⟨hrelays, List.forall_mem_cons.mpr ⟨hitem, hall⟩⟩

theorem routeAll {first : Terminal} {others : List EntityId} {side : End}
    (ha : first.entity ∈ ids ++ loose) (ho : others ⊆ ids ++ loose) :
    Plan setting frame ids loose (fun _ => [])
      (.relayed fun blueprint _ => ∀ other ∈ others, blueprint.Linked color first ⟨other, side⟩)
      (routeAll frame first others side color) :=
  forM fun _ hm => route ha (ho hm)

/-- A combinator, and then what comes behind it. -/
theorem place_bind {next : EntityId → Build β} {ends' : β → List EntityId}
    {spec' : EntityId → Spec β} (hs : Feed.entities feeds ⊆ ids)
    (h : ∀ id, Plan setting frame (id :: ids) loose ends' (spec' id) (next id)) :
    Plan setting frame ids loose ends'
      (fun blueprint slots first inventory b => ∃ n rest,
        inventory = .single slots condition feeds first n ++ rest ∧
        blueprint.Works ⟨first, feeds⟩ condition ∧
        spec' first blueprint slots (first + (n + 1)) rest b)
      (Layout.place frame condition feeds >>= next) := by
  refine ((place hs).bind h).imp ?_
  rintro blueprint slots first _ b ⟨_, _, rest, rfl, ⟨rfl, ⟨n, rfl⟩, hw⟩, hs⟩
  rw [Inventory.size_single] at hs
  exact ⟨n, rest, rfl, hw, hs⟩

/-- A combinator that is the only end. -/
theorem place_end (hs : Feed.entities feeds ⊆ ids) :
    Plan setting frame ids loose id
      (fun blueprint slots first inventory ends => ends = [first] ∧
        (∃ n, inventory = .single slots condition feeds first n) ∧
        blueprint.Works ⟨first, feeds⟩ condition)
      (Layout.place frame condition feeds >>= fun id => Pure.pure [id]) := by
  refine ((place hs).map (by simp)).imp ?_
  rintro blueprint slots first inventory _ ⟨_, rfl, rfl, hn, hw⟩
  exact ⟨rfl, hn, hw⟩

/-- The tail of a chain, and then what comes behind it. -/
theorem tail_bind {next : EntityId → Build β} {ends' : β → List EntityId}
    {spec' : EntityId → Spec β} (hc : setting.takesChains = true)
    (h : ∀ id, Plan setting frame (id :: ids) loose ends' (spec' id) (next id)) :
    Plan setting frame ids loose ends' (Spec.relay.andThen spec')
      (here frame >>= fun tile => put .relay tile >>= next) := by
  rw [← bind_assoc]
  exact (tail hc).bind h

end Plan

/-- The wires of a gate. -/
def wireGate (frame : Frame) (loops : Bool) (gate : Gate) (test last readers : List EntityId) :
    Build EntityId := do
  let back := if loops then Color.green else .red
  routeAll frame ⟨gate.subtractAll, .output⟩ last .output .red
  route frame ⟨gate.subtractOut, .output⟩ ⟨gate.testAll, .output⟩ back
  route frame ⟨gate.subtractAll, .output⟩ ⟨gate.testAll, .input⟩ .red
  route frame ⟨gate.subtractAll, .input⟩ ⟨gate.oneWay, .input⟩ .red
  unless loops do
    route frame ⟨gate.oneWay, .output⟩ ⟨gate.testAll, .output⟩ .red
  routeAll frame ⟨gate.testOut, .input⟩ test .output frame.outColor
  route frame ⟨gate.testOut, .input⟩ ⟨gate.testAll, .input⟩ frame.outColor
  if loops then
    routeAll frame ⟨gate.testAll, .output⟩ readers .input back
    routeAll frame ⟨gate.testAll, .output⟩ test .input .red
  return gate.exit loops

theorem placeGate_eq {loops : Bool} {out : String} {test last readers : List EntityId} :
    placeGate frame loops out test last readers = (do
      let subtractAll ← place frame (subtraction each) frame.feeds
      let testOut ← place frame (testing out out) []
      let subtractOut ← place frame (subtraction out) [.entity testOut]
      let oneWay ← place frame Step.passthrough.condition []
      let testAll ← place frame (testing out everything) []
      wireGate frame loops ⟨subtractAll, testOut, subtractOut, oneWay, testAll⟩ test last readers) := by
  rw [placeGate]
  simp only [wireGate, Gate.exit]

namespace Plan

theorem wireGate {loops : Bool} {gate : Gate} {test last readers : List EntityId}
    (hg : ∀ placement ∈ gate.placements [], placement.id ∈ ids) (hl : last ⊆ ids)
    (ht : test ⊆ loose) (hr : readers ⊆ loose) :
    Plan setting frame ids loose (fun id => [id])
      (.relayed fun blueprint id => id = gate.exit loops ∧
        gate.Wired blueprint loops test last readers)
      (wireGate frame loops gate test last readers) := by
  have hl' : last ⊆ ids ++ loose := List.subset_append_of_subset_left _ hl
  have ht' : test ⊆ ids ++ loose := List.subset_append_of_subset_right _ ht
  have hr' : readers ⊆ ids ++ loose := List.subset_append_of_subset_right _ hr
  simp only [Gate.placements, List.forall_mem_cons, List.not_mem_nil, false_imp_iff, implies_true,
    and_true] at hg
  obtain ⟨hsubtractAll, htestOut, hsubtractOut, honeWay, htestAll⟩ := hg
  have hmem : ∀ {id}, id ∈ ids → id ∈ ids ++ loose := List.mem_append_left loose
  cases loops with
  | false =>
    refine (((routeAll (hmem hsubtractAll) hl').seq_relayed <|
      (route (hmem hsubtractOut) (hmem htestAll)).seq_relayed <|
      (route (hmem hsubtractAll) (hmem htestAll)).seq_relayed <|
      (route (hmem hsubtractAll) (hmem honeWay)).seq_relayed <|
      (route (hmem honeWay) (hmem htestAll)).seq_relayed <|
      (routeAll (hmem htestOut) ht').seq_relayed <|
      (route (hmem htestOut) (hmem htestAll)).seq_relayed <|
      pure_relayed (by simp [Gate.exit, htestAll])).imp ?_)
    rintro blueprint slots first inventory id
      ⟨hrelays, hlast, hback, hkept, hpassed, hmerged, htests, htested, hid⟩
    exact ⟨hrelays, hid, hlast, hback, hkept, hpassed, fun _ => hmerged, ⟨_, htests, htested⟩, nofun⟩
  | true =>
    refine (((routeAll (hmem hsubtractAll) hl').seq_relayed <|
      (route (hmem hsubtractOut) (hmem htestAll)).seq_relayed <|
      (route (hmem hsubtractAll) (hmem htestAll)).seq_relayed <|
      (route (hmem hsubtractAll) (hmem honeWay)).seq_relayed <|
      (routeAll (hmem htestOut) ht').seq_relayed <|
      (route (hmem htestOut) (hmem htestAll)).seq_relayed <|
      (routeAll (hmem htestAll) hr').seq_relayed <|
      (routeAll (hmem htestAll) ht').seq_relayed <|
      pure_relayed (by simp [Gate.exit, honeWay])).imp ?_)
    rintro blueprint slots first inventory id
      ⟨hrelays, hlast, hback, hkept, hpassed, htests, htested, hreaders, hlooped, hid⟩
    exact ⟨hrelays, hid, hlast, hback, hkept, hpassed, nofun, ⟨_, htests, htested⟩,
      fun _ => ⟨hreaders, hlooped⟩⟩

theorem placeGate {loops : Bool} {out : String} {test last readers : List EntityId}
    (hs : Feed.entities frame.feeds ⊆ ids) (hl : last ⊆ ids) (ht : test ⊆ loose)
    (hr : readers ⊆ loose) :
    Plan setting frame ids loose (fun id => [id])
      (fun blueprint slots first inventory id => ∃ gate : Gate, ∃ gated n,
        inventory = gated ++ .relays n ∧ id = gate.exit loops ∧
        Row blueprint slots first (gate.placements frame.feeds) (Gate.payloads out) gated ∧
        gate.Wired blueprint loops test last readers)
      (placeGate frame loops out test last readers) := by
  rw [placeGate_eq]
  refine (place_bind hs fun subtractAll => place_bind (by simp [Feed.entities]) fun testOut =>
    place_bind (by simp [Feed.entities]) fun subtractOut =>
    place_bind (by simp [Feed.entities]) fun oneWay =>
    place_bind (by simp [Feed.entities]) fun testAll =>
    wireGate (by simp [Gate.placements]) (fun id hid => by simp [hl hid]) ht hr).imp ?_
  rintro blueprint slots first _ id ⟨i, _, rfl, hsubtractAll, j, _, rfl, htestOut, k, _, rfl,
    hsubtractOut, l, _, rfl, honeWay, m, _, rfl, htestAll, ⟨n, rfl⟩, hid, hwired⟩
  have hlast : Row blueprint slots _ _ _ (.single slots _ _ _ m ++ .relays 0) := .cons htestAll .nil
  have hrow := Row.cons hsubtractAll (.cons htestOut (.cons hsubtractOut (.cons honeWay hlast)))
  refine ⟨_, _, n, ?_, hid, hrow, hwired⟩
  simp only [Inventory.append_assoc, Inventory.relays_zero_append]

end Plan

@[simp] theorem entities_map_entity (ids : List EntityId) :
    Feed.entities (ids.map .entity) = ids := by
  induction ids with
  | nil => rfl
  | cons id rest ih => exact congrArg (id :: ·) ih

@[simp] theorem entities_append (first second : List Feed) :
    Feed.entities (first ++ second) = Feed.entities first ++ Feed.entities second := by
  simp [Feed.entities]

theorem getLast?_subset_flatten (ends : List (List EntityId)) :
    ends.getLast?.getD [] ⊆ ends.flatten := by
  cases h : ends.getLast? with
  | none => simp
  | some last =>
    intro id hid
    exact List.mem_flatten.mpr ⟨last, List.mem_of_getLast? h, hid⟩

theorem entities_behind (flow : Flow) (ends : List EntityId) :
    Feed.entities (flow.behind ends).feeds ⊆ ends ++ Feed.entities flow.feeds := by
  cases flow with
  | chained first => simp [Flow.behind, Flow.feeds]
  | shared feeds => simp [Flow.behind, Flow.feeds]
  | series feeds => simp [Flow.behind, Flow.feeds]

theorem carried_subset (flow : Flow) (ends : List EntityId) : flow.carried ends ⊆ ends := by
  cases flow <;> simp [Flow.carried]

theorem lowerBody_cons {flow : Flow} {carried : List EntityId} {node : Node} {rest : List Node}
    (h : ∀ step, node ≠ .step step) :
    lowerBody frame flow carried (node :: rest) = (do
      let ends ← descend frame (flow.feeds ++ carried.map .entity) false false
        fun inner => lower inner node
      return ends :: (← lowerBody frame (flow.behind ends) (carried ++ flow.carried ends) rest)) := by
  cases node with
  | step step => exact absurd rfl (h step)
  | _ => rfl

/-- What a body reads: what its construct reads, what its flow gives to the next member, and what is
carried over. -/
def bodyReads (frame : Frame) (flow : Flow) (carried : List EntityId) : List EntityId :=
  Feed.entities frame.feeds ++ (Feed.entities flow.feeds ++ carried)

theorem bodyReads_behind (frame : Frame) (flow : Flow) (carried ends : List EntityId) :
    bodyReads frame (flow.behind ends) (carried ++ flow.carried ends) ⊆
      ends ++ bodyReads frame flow carried := by
  intro id hid
  simp only [bodyReads, List.mem_append] at hid ⊢
  rcases hid with hid | hid | hid | hid
  · exact .inr (.inl hid)
  · rcases List.mem_append.mp (entities_behind flow ends hid) with hid | hid
    · exact .inl hid
    · exact .inr (.inr (.inl hid))
  · exact .inr (.inr (.inr hid))
  · exact .inl (carried_subset flow ends hid)

/-- A construct follows a plan in its frame, and is there in full afterwards. -/
abbrev Follows (setting : Setting) (frame : Frame) (node : Node) : Prop :=
  Plan setting frame (Feed.entities frame.feeds) [] id
    (fun blueprint slots first inventory ends =>
      Realizes blueprint slots frame.feeds node first inventory ends)
    (lower frame node)

abbrev FollowsBody (setting : Setting) (frame : Frame) (flow : Flow) (carried : List EntityId)
    (body : List Node) : Prop :=
  Plan setting frame (bodyReads frame flow carried) [] List.flatten
    (fun blueprint slots first inventory ends =>
      RealizesBody blueprint slots frame.feeds flow carried body first inventory ends)
    (lowerBody frame flow carried body)

abbrev FollowsMembers (setting : Setting) (frame : Frame) (body : List Node) : Prop :=
  Plan setting frame (Feed.entities frame.feeds) [] id
    (fun blueprint slots first inventory ends =>
      RealizesMembers blueprint slots frame.feeds body first inventory ends)
    (lowerMembers frame body)

abbrev FollowsSide (setting : Setting) (frame : Frame) (side : Side) : Prop :=
  Plan setting frame (Feed.entities frame.feeds) [] id
    (fun blueprint slots first inventory ends =>
      RealizesSide blueprint slots frame.feeds side first inventory ends)
    (lowerSide frame side)

/-- A member in a frame of its own. -/
theorem Plan.member {staysOn : Bool} {node : Node} (hi : inner ∈ setting.inner?)
    (h : ∀ start, Follows inner (frame.inner start feeds false staysOn) node) :
    Plan setting frame (Feed.entities feeds) [] id
      (fun blueprint slots first inventory ends =>
        Realizes blueprint slots feeds node first inventory ends)
      (Layout.descend frame feeds false staysOn fun inner => lower inner node) :=
  .descend hi h

theorem threshold_and (negated : Bool) (size : Nat) (out : String) :
    threshold true negated size out = .decider (.signal out) (if negated then .lt else .eq)
      (.constant (.ofNat size)) out false := by
  cases negated <;> rfl

theorem threshold_or (negated : Bool) (size : Nat) (out : String) :
    threshold false negated size out = .decider (.signal out) (if negated then .eq else .gt)
      (.constant 0) out false := by
  cases negated <;> rfl

namespace Follows

variable {scope : Scope} {body : List Node} {left right : Side} {negated : Bool} {out : String}

theorem step {step : Step} : Follows setting frame (.step step) := by
  rw [Follows, lower]
  refine .announced ((Plan.place_end (List.Subset.refl _)).imp ?_)
  rintro blueprint slots first _ _ ⟨rfl, ⟨n, rfl⟩, hw⟩
  exact .step hw

theorem series (h : FollowsBody setting frame (.series frame.feeds) [] body) :
    Follows setting frame (.series scope body) := by
  rw [Follows, lower]
  refine .announced (((h.mono (by simp [bodyReads, Flow.feeds]) (List.Subset.refl _)).map
    fun ends => ?_).imp ?_)
  · exact List.subset_append_of_subset_left _ (getLast?_subset_flatten ends)
  · rintro blueprint slots first inventory _ ⟨ends, rfl, h⟩
    exact .series h

theorem parallel (h : FollowsBody setting frame (.shared frame.feeds) [] body) :
    Follows setting frame (.parallel scope body) := by
  rw [Follows, lower]
  refine .announced (((h.mono (by simp [bodyReads, Flow.feeds]) (List.Subset.refl _)).map
    fun ends => ?_).imp ?_)
  · exact List.subset_append_left _ _
  · rintro blueprint slots first inventory _ ⟨ends, rfl, h⟩
    exact .parallel h

/-- The members of a chain stand between its head and its tail, to which the last one is wired. -/
theorem chain (hc : setting.takesChains = true)
    (h : ∀ head, FollowsBody setting frame (.chained [.entity head]) [] body) :
    Follows setting frame (.chain scope body) := by
  rw [Follows, lower]
  refine .announced ((Plan.bind (.head hc) fun head =>
    .bind ((h head).mono (by simp [bodyReads, Flow.feeds, Feed.entities]) (List.Subset.refl _))
      fun ends => .tail_bind hc fun tail =>
    .seq (.routeAll (by simp) ?_) (.pure (by simp))).imp ?_)
  · cases hl : ends.getLast? with
    | none => simp
    | some last =>
      intro id hid
      have hm : id ∈ ends.flatten := List.mem_flatten.mpr ⟨last, List.mem_of_getLast? hl, hid⟩
      simp [hm]
  · rintro blueprint slots first _ _ ⟨_, _, _, rfl, ⟨rfl, rfl, hh⟩, ends, made, _, rfl, h, _, _, _,
      rfl, ⟨rfl, rfl, ht⟩, n, _, rfl, hl, rfl, rfl⟩
    rw [Inventory.append_relays_zero, Inventory.relays_append]
    exact .chain hh ht h hl

theorem entities_sides (leftEnds rightEnds : List EntityId) :
    Feed.entities (frame.feeds ++ (leftEnds ++ rightEnds).map .entity) ⊆
      rightEnds ++ (leftEnds ++ Feed.entities frame.feeds) := by
  intro id hid
  simp only [entities_append, entities_map_entity, List.mem_append] at hid ⊢
  rcases hid with hid | hid | hid
  · exact .inr (.inr hid)
  · exact .inr (.inl hid)
  · exact .inl hid

theorem compare {op : Comparator} (hl : FollowsSide setting frame left)
    (hr : FollowsSide setting frame right) :
    Follows setting frame (.compare op false left right out) := by
  rw [Follows, lower]
  refine .announced ((hl.bind fun leftEnds =>
    (hr.mono (by simp) (List.Subset.refl _)).bind fun rightEnds =>
    .place_end (entities_sides leftEnds rightEnds)).imp ?_)
  rintro blueprint slots first _ _ ⟨leftEnds, leftMade, _, rfl, hl, rightEnds, rightMade, _, rfl, hr,
    rfl, ⟨n, rfl⟩, hw⟩
  exact .compare hl hr hw

/-- A second decider turns the result of the first one around. -/
theorem compare_negated {op : Comparator} (hl : FollowsSide setting frame left)
    (hr : FollowsSide setting frame right) :
    Follows setting frame (.compare op true left right out) := by
  rw [Follows, lower]
  refine .announced ((hl.bind fun leftEnds =>
    (hr.mono (by simp) (List.Subset.refl _)).bind fun rightEnds =>
    .place_bind (entities_sides leftEnds rightEnds) fun decider =>
    .place_end (by simp [Feed.entities])).imp ?_)
  rintro blueprint slots first _ _ ⟨leftEnds, leftMade, _, rfl, hl, rightEnds, rightMade, _, rfl, hr,
    m, _, rfl, hw, rfl, ⟨n, rfl⟩, hi⟩
  have hsize : first + (leftMade ++ (rightMade ++ .single slots
      (.decider left.operand op right.operand out false)
      (frame.feeds ++ (leftEnds ++ rightEnds).map .entity)
      (first + leftMade.size + rightMade.size) m)).size =
      first + leftMade.size + rightMade.size + (m + 1) := by
    simp only [Inventory.size_append, Inventory.size_single]
    omega
  rw [← hsize] at hi ⊢
  have hboth := Realizes.negated (n := n) (.compare hl hr hw) hi
  rwa [Inventory.append_assoc, Inventory.append_assoc] at hboth

theorem and (h : FollowsMembers setting frame body) :
    Follows setting frame (.and negated body out) := by
  rw [Follows, lower, threshold_and]
  refine .announced ((h.bind fun ends => .place_end (by simp)).imp ?_)
  rintro blueprint slots first _ _ ⟨ends, made, _, rfl, h, rfl, ⟨n, rfl⟩, hw⟩
  exact .and h hw

theorem or (h : FollowsMembers setting frame body) :
    Follows setting frame (.or negated body out) := by
  rw [Follows, lower, threshold_or]
  refine .announced ((h.bind fun ends => .place_end (by simp)).imp ?_)
  rintro blueprint slots first _ _ ⟨ends, made, _, rfl, h, rfl, ⟨n, rfl⟩, hw⟩
  exact .or h hw

/-- A conditional: its test in a turned frame, its body with a slot open for the gate, and the gate
for those that asked for it. -/
theorem conditional {loops : Bool} {test : Node} (hi : inner ∈ setting.turned?)
    (ht : ∀ start, Follows inner (frame.inner start frame.feeds true false) test)
    (hb : ∀ slot, FollowsBody setting frame (.shared (frame.feeds ++ [.request slot])) [] body) :
    Follows setting frame (.conditional loops scope test out body) := by
  rw [Follows, lower]
  have htest : ∀ start, Plan inner (frame.inner start frame.feeds true false)
      (Feed.entities frame.feeds) [] id
      (fun blueprint slots first inventory ends =>
        Realizes blueprint slots frame.feeds test first inventory ends)
      (lower (frame.inner start frame.feeds true false) test) := ht
  refine .announced ((Plan.test hi htest fun testEnds =>
    .slot (Option.isSome_of_mem hi)
      (fun slot => (hb slot).mono (by simp [bodyReads, Flow.feeds, Feed.entities]) (by simp))
      fun ends readers => (Plan.placeGate (by simp) ?_ (by simp) (by simp)).map (by simp)).imp ?_)
  · exact List.subset_append_of_subset_left _ (getLast?_subset_flatten ends)
  · rintro blueprint slots first _ _ ⟨testEnds, tested, _, rfl, ht, ends, made, _, rfl, hb, _, rfl,
      gate, gated, n, rfl, rfl, hg, hw⟩
    exact .conditional ht hb hg hw

end Follows

mutual

/-- A construct that is allowed in a setting follows a plan, and is there in full afterwards. -/
theorem plan_lower (frame : Frame) : (setting : Setting) → (node : Node) → node.Allowed setting →
    Follows setting frame node
  | _, .step _, _ => .step
  | setting, .series _ body, h =>
    .series (plan_lowerBody frame setting (.series frame.feeds) [] body h)
  | setting, .parallel _ body, h =>
    .parallel (plan_lowerBody frame setting (.shared frame.feeds) [] body h)
  | setting, .chain _ body, h =>
    .chain h.1 fun head => plan_lowerBody frame setting (.chained [.entity head]) [] body h.2
  | setting, .compare _ negated left right _, h => by
    have hl := plan_lowerSide frame setting left h.1
    have hr := plan_lowerSide frame setting right h.2
    cases negated with
    | false => exact .compare hl hr
    | true => exact .compare_negated hl hr
  | setting, .and _ body _, ⟨inner, hi, h⟩ => .and (plan_lowerMembers frame setting inner body hi h)
  | setting, .or _ body _, ⟨inner, hi, h⟩ => .or (plan_lowerMembers frame setting inner body hi h)
  | setting, .conditional _ _ test _ body, ⟨⟨inner, hi, ht⟩, hb⟩ =>
    .conditional hi
      (fun start => plan_lower (frame.inner start frame.feeds true false) inner test ht)
      fun slot =>
        plan_lowerBody frame setting (.shared (frame.feeds ++ [.request slot])) [] body hb

theorem plan_lowerBody (frame : Frame) : (setting : Setting) → (flow : Flow) →
    (carried : List EntityId) → (body : List Node) → AllowedBody body setting →
    FollowsBody setting frame flow carried body
  | setting, flow, carried, [], _ => by
    refine (Plan.pure (by simp)).imp ?_
    rintro blueprint slots first _ _ ⟨rfl, rfl⟩
    exact .nil
  | setting, flow, carried, node :: rest, h => by
    have hrest := fun ends => (plan_lowerBody frame setting (flow.behind ends)
      (carried ++ flow.carried ends) rest h.2).mono (bodyReads_behind frame flow carried ends)
        (List.Subset.refl _)
    by_cases hstep : ∃ step, node = .step step
    · obtain ⟨step, rfl⟩ := hstep
      rw [FollowsBody, lowerBody]
      refine (Plan.place_bind (by simp [bodyReads]) fun id =>
        (Plan.readsRelay (by simp [bodyReads])).after fun relayed =>
        .seq (.routeAll (by simp) fun other ho => by simp [bodyReads, ho])
          ((hrest [id]).map (by simp))).imp ?_
      rintro blueprint slots first _ _ ⟨m, _, rfl, hw, _, rfl, n, made, rfl, hc, ends, rfl, hr⟩
      rw [← Inventory.append_assoc, Inventory.single_append]
      refine .step hw (fun prior hp => (hc prior hp).symm) ?_
      rwa [Nat.add_right_comm m n 1, ← Nat.add_assoc]
    · have hinner := h.1.resolve_left hstep
      obtain ⟨inner, hi, hn⟩ := hinner
      rw [FollowsBody, lowerBody_cons fun step hs => hstep ⟨step, hs⟩]
      have hmember := @Plan.member setting inner frame (flow.feeds ++ carried.map .entity) false node
        hi fun start => plan_lower
          (frame.inner start (flow.feeds ++ carried.map .entity) false false) inner node hn
      refine ((hmember.mono (by simp [bodyReads]) (List.Subset.refl _)).bind fun ends =>
        (hrest ends).map (by simp)).imp ?_
      rintro blueprint slots first _ _ ⟨firstEnds, one, two, rfl, hm, ends, rfl, hr⟩
      exact .member (fun step hs => hstep ⟨step, hs⟩) hm hr

theorem plan_lowerMembers (frame : Frame) : (setting : Setting) → (inner : Setting) →
    (body : List Node) → inner ∈ setting.inner? → AllowedMembers body inner →
    FollowsMembers setting frame body
  | setting, inner, [], _, _ => by
    refine (Plan.pure (by simp)).imp ?_
    rintro blueprint slots first _ _ ⟨rfl, rfl⟩
    exact .nil
  | setting, inner, node :: rest, hi, h => by
    rw [FollowsMembers, lowerMembers]
    refine ((Plan.member hi fun start =>
      plan_lower (frame.inner start frame.feeds false false) inner node h.1).bind fun ends =>
      ((plan_lowerMembers frame setting inner rest hi h.2).mono (by simp)
        (List.Subset.refl _)).map (by simp)).imp ?_
    rintro blueprint slots first _ _ ⟨firstEnds, one, two, rfl, hm, ends, rfl, hr⟩
    exact .cons hm hr

theorem plan_lowerSide (frame : Frame) : (setting : Setting) → (side : Side) →
    side.Allowed setting → FollowsSide setting frame side
  | setting, .value operand, _ => by
    refine (Plan.pure (by simp)).imp ?_
    rintro blueprint slots first _ _ ⟨rfl, rfl⟩
    exact .value
  | setting, .series scope body, ⟨inner, hi, h⟩ => by
    rw [FollowsSide, lowerSide]
    refine .descend hi fun start => ?_
    have hb := plan_lowerBody (frame.inner start frame.feeds false true) inner
      (.series frame.feeds) [] body h
    refine ((hb.mono (by simp [bodyReads, Flow.feeds, Frame.inner]) (List.Subset.refl _)).map
      fun ends => ?_).imp ?_
    · exact List.subset_append_of_subset_left _ (getLast?_subset_flatten ends)
    · rintro blueprint slots first inventory _ ⟨ends, rfl, h⟩
      exact .series h

end

end Layout

end CircuitScript
