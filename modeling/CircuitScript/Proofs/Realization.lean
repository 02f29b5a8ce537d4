import CircuitScript.Layout.Lower
import CircuitScript.Proofs.Inventory
/-!
Every construct is there in full. The relations below say, construct by construct, which entities it
is made of, by their numbers, what each of its combinators was placed to read, and that all of it
really reaches them. They spell out the payloads of the combinators, so they tell what a program is
laid out from without looking at how it is laid out.
-/
namespace CircuitScript

namespace Blueprint

variable {before after : Blueprint}

/-- The colour over which an entity is read. -/
def feedColor (blueprint : Blueprint) (id : EntityId) : Color :=
  if blueprint.isRelay id then .red else .green

/-- One network of a colour reaches both sides of two entities. -/
def Linked (blueprint : Blueprint) (color : Color) (a b : Terminal) : Prop :=
  blueprint.Joined color (blueprint.vertex a) (blueprint.vertex b)

/-- What an entity puts out reaches the input of another one. -/
def Feeds (blueprint : Blueprint) (id reader : EntityId) : Prop :=
  blueprint.Linked (blueprint.feedColor id) ⟨id, .output⟩ ⟨reader, .input⟩

/-- The entity is a combinator with a payload. -/
def Holds (blueprint : Blueprint) (id : EntityId) (condition : Condition) : Prop :=
  ∃ entity, blueprint.entity? id = some entity ∧ entity.kind = condition.kind ∧
    entity.condition = some condition

/-- A combinator has its payload, and every entity among its feeds really feeds it. -/
structure Works (blueprint : Blueprint) (placement : Layout.Placement) (condition : Condition) :
    Prop where
  holds : blueprint.Holds placement.id condition
  feeds : ∀ id ∈ Layout.Feed.entities placement.feeds, blueprint.Feeds id placement.id

theorem Extends.linked {color : Color} {a b : Terminal} (h : Extends before after)
    (ha : a.entity < before.size) (hb : b.entity < before.size) (hl : before.Linked color a b) :
    after.Linked color a b := by
  rw [Linked, h.grows.vertex ha, h.grows.vertex hb]
  exact hl.mono h.grows

end Blueprint

namespace Layout

/-- The combinators of a gate, by their work. -/
structure Gate where
  subtractAll : EntityId
  testOut : EntityId
  subtractOut : EntityId
  oneWay : EntityId
  testAll : EntityId
  deriving DecidableEq, Repr, Inhabited

namespace Gate

/-- The combinators in the order in which they are placed. -/
def placements (gate : Gate) (feeds : List Feed) : List Placement :=
  [⟨gate.subtractAll, feeds⟩, ⟨gate.testOut, []⟩, ⟨gate.subtractOut, [.entity gate.testOut]⟩,
    ⟨gate.oneWay, []⟩, ⟨gate.testAll, []⟩]

/-- The payloads in the same order: each signal is taken away, the signal of the test passes while it
is one, and is taken away again; then all signals pass one way, and everything passes while the test
holds. -/
def payloads (out : String) : List Condition :=
  [.arithmetic (.signal each) .mul (.constant (-1)) each,
    .decider (.signal out) .eq (.constant 1) out true,
    .arithmetic (.signal out) .mul (.constant (-1)) out,
    .arithmetic (.signal each) .add (.constant 0) each,
    .decider (.signal out) .eq (.constant 1) everything true]

/-- What later constructs read. -/
def exit (gate : Gate) (loops : Bool) : EntityId := if loops then gate.oneWay else gate.testAll

/-- The gate is wired to the test, to the last ends of the body and to its readers. -/
structure Wired (blueprint : Blueprint) (loops : Bool) (gate : Gate)
    (test last readers : List EntityId) : Prop where
  last : ∀ id ∈ last, blueprint.Linked .red ⟨gate.subtractAll, .output⟩ ⟨id, .output⟩
  back : blueprint.Linked (if loops then .green else .red) ⟨gate.subtractOut, .output⟩
    ⟨gate.testAll, .output⟩
  kept : blueprint.Linked .red ⟨gate.subtractAll, .output⟩ ⟨gate.testAll, .input⟩
  passed : blueprint.Linked .red ⟨gate.subtractAll, .input⟩ ⟨gate.oneWay, .input⟩
  merged : loops = false → blueprint.Linked .red ⟨gate.oneWay, .output⟩ ⟨gate.testAll, .output⟩
  tested : ∃ color, (∀ id ∈ test, blueprint.Linked color ⟨gate.testOut, .input⟩ ⟨id, .output⟩) ∧
    blueprint.Linked color ⟨gate.testOut, .input⟩ ⟨gate.testAll, .input⟩
  looped : loops = true →
    (∀ id ∈ readers, blueprint.Linked .green ⟨gate.testAll, .output⟩ ⟨id, .input⟩) ∧
    ∀ id ∈ test, blueprint.Linked .red ⟨gate.testAll, .output⟩ ⟨id, .input⟩

end Gate

mutual

/-- The payloads of a construct, in the order in which its combinators are placed. A conjunction
counts its members and tests for all of them, or for fewer; a disjunction tests for any of them, or
for none. -/
def payloads : Node → List Condition
  | .step step => [.arithmetic step.left step.op step.right step.out]
  | .series _ body | .parallel _ body | .chain _ body => bodyPayloads body
  | .compare op negated left right out =>
    sidePayloads left ++ sidePayloads right ++ [.decider left.operand op right.operand out false] ++
      if negated then [.decider (.signal out) .eq (.constant 0) out false] else []
  | .and negated body out => bodyPayloads body ++
    [.decider (.signal out) (if negated then .lt else .eq) (.constant (.ofNat body.length)) out false]
  | .or negated body out => bodyPayloads body ++
    [.decider (.signal out) (if negated then .eq else .gt) (.constant 0) out false]
  | .conditional _ _ test out body => payloads test ++ (bodyPayloads body ++ Gate.payloads out)

def bodyPayloads : List Node → List Condition
  | [] => []
  | node :: rest => payloads node ++ bodyPayloads rest

def sidePayloads : Side → List Condition
  | .value _ => []
  | .series _ body => bodyPayloads body

end

/-- The colour over which the members of a series read each other: the one that its feeds leave
free. -/
def busColor (blueprint : Blueprint) (feeds : List Feed) : Color :=
  if (Feed.entities feeds).any blueprint.isRelay then .green else .red

/-- Combinators that are created one after the other, from a number on, and work. -/
inductive Row (blueprint : Blueprint) (slots : Nat) :
    Nat → List Placement → List Condition → Inventory → Prop
  | nil {first : Nat} : Row blueprint slots first [] [] (.relays 0)
  | cons {first n : Nat} {feeds : List Feed} {condition : Condition} {placed : List Placement}
      {conditions : List Condition} {made : Inventory}
      (hw : blueprint.Works ⟨first, feeds⟩ condition)
      (h : Row blueprint slots (first + (n + 1)) placed conditions made) :
      Row blueprint slots first (⟨first, feeds⟩ :: placed) (condition :: conditions)
        (.single slots condition feeds first n ++ made)

mutual

/-- A construct that reads some feeds, while some slots are open, consists of what an inventory
lists, the first entity of which has the number `first`, and `ends` are its ends. -/
inductive Realizes (blueprint : Blueprint) :
    Nat → List Feed → Node → Nat → Inventory → List EntityId → Prop
  | step {slots first n : Nat} {feeds : List Feed} {step : Step}
      (hw : blueprint.Works ⟨first, feeds⟩ (.arithmetic step.left step.op step.right step.out)) :
      Realizes blueprint slots feeds (.step step) first
        (.single slots (.arithmetic step.left step.op step.right step.out) feeds first n) [first]
  | series {slots first : Nat} {feeds : List Feed} {scope : Scope} {body : List Node}
      {made : Inventory} {ends : List (List EntityId)}
      (h : RealizesBody blueprint slots feeds (.series feeds) [] body first made ends) :
      Realizes blueprint slots feeds (.series scope body) first made (ends.getLast?.getD [])
  | parallel {slots first : Nat} {feeds : List Feed} {scope : Scope} {body : List Node}
      {made : Inventory} {ends : List (List EntityId)}
      (h : RealizesBody blueprint slots feeds (.shared feeds) [] body first made ends) :
      Realizes blueprint slots feeds (.parallel scope body) first made ends.flatten
  /-- The head comes before the body, the tail right behind it. -/
  | chain {slots first n : Nat} {feeds : List Feed} {scope : Scope} {body : List Node}
      {made : Inventory} {ends : List (List EntityId)} (hh : blueprint.isRelay first = true)
      (ht : blueprint.isRelay (first + 1 + made.size) = true)
      (h : RealizesBody blueprint slots feeds (.chained [.entity first]) [] body (first + 1) made ends)
      (hl : ∀ id ∈ ends.getLast?.getD [first],
        blueprint.Linked .red ⟨first + 1 + made.size, .input⟩ ⟨id, .output⟩) :
      Realizes blueprint slots feeds (.chain scope body) first
        (.relays 1 ++ (made ++ .relays (1 + n))) [first + 1 + made.size]
  | compare {slots first n : Nat} {feeds : List Feed} {op : Comparator} {left right : Side}
      {out : String} {leftMade rightMade : Inventory} {leftEnds rightEnds : List EntityId}
      (hl : RealizesSide blueprint slots feeds left first leftMade leftEnds)
      (hr : RealizesSide blueprint slots feeds right (first + leftMade.size) rightMade rightEnds)
      (hw : blueprint.Works ⟨first + leftMade.size + rightMade.size,
        feeds ++ (leftEnds ++ rightEnds).map .entity⟩
        (.decider left.operand op right.operand out false)) :
      Realizes blueprint slots feeds (.compare op false left right out) first
        (leftMade ++ (rightMade ++ .single slots (.decider left.operand op right.operand out false)
          (feeds ++ (leftEnds ++ rightEnds).map .entity)
          (first + leftMade.size + rightMade.size) n))
        [first + leftMade.size + rightMade.size]
  | negated {slots first n : Nat} {feeds : List Feed} {op : Comparator} {left right : Side}
      {out : String} {made : Inventory} {decider : EntityId}
      (h : Realizes blueprint slots feeds (.compare op false left right out) first made [decider])
      (hw : blueprint.Works ⟨first + made.size, [.entity decider]⟩
        (.decider (.signal out) .eq (.constant 0) out false)) :
      Realizes blueprint slots feeds (.compare op true left right out) first
        (made ++ .single slots (.decider (.signal out) .eq (.constant 0) out false)
          [.entity decider] (first + made.size) n)
        [first + made.size]
  | and {slots first n : Nat} {feeds : List Feed} {negated : Bool} {body : List Node} {out : String}
      {made : Inventory} {ends : List EntityId}
      (h : RealizesMembers blueprint slots feeds body first made ends)
      (hw : blueprint.Works ⟨first + made.size, ends.map .entity⟩
        (.decider (.signal out) (if negated then .lt else .eq) (.constant (.ofNat body.length)) out
          false)) :
      Realizes blueprint slots feeds (.and negated body out) first
        (made ++ .single slots
          (.decider (.signal out) (if negated then .lt else .eq) (.constant (.ofNat body.length)) out
            false) (ends.map .entity) (first + made.size) n)
        [first + made.size]
  | or {slots first n : Nat} {feeds : List Feed} {negated : Bool} {body : List Node} {out : String}
      {made : Inventory} {ends : List EntityId}
      (h : RealizesMembers blueprint slots feeds body first made ends)
      (hw : blueprint.Works ⟨first + made.size, ends.map .entity⟩
        (.decider (.signal out) (if negated then .eq else .gt) (.constant 0) out false)) :
      Realizes blueprint slots feeds (.or negated body out) first
        (made ++ .single slots
          (.decider (.signal out) (if negated then .eq else .gt) (.constant 0) out false)
          (ends.map .entity) (first + made.size) n)
        [first + made.size]
  | conditional {slots first n : Nat} {feeds : List Feed} {loops : Bool} {scope : Scope}
      {test : Node} {out : String} {body : List Node} {tested made gated : Inventory}
      {testEnds : List EntityId} {ends : List (List EntityId)} {gate : Gate}
      (ht : Realizes blueprint slots feeds test first tested testEnds)
      (hb : RealizesBody blueprint (slots + 1) feeds (.shared (feeds ++ [.request slots])) [] body
        (first + tested.size) made ends)
      (hg : Row blueprint slots (first + tested.size + made.size) (gate.placements feeds)
        (Gate.payloads out) gated)
      (hw : gate.Wired blueprint loops testEnds (ends.getLast?.getD [])
        (collected slots made.placed)) :
      Realizes blueprint slots feeds (.conditional loops scope test out body) first
        (tested ++ (made ++ (.closing slots (collected slots made.placed) ++ (gated ++ .relays n))))
        [gate.exit loops]

/-- The members of a body, in a construct that reads `feeds`. A step reads what its flow gives it,
and over the bus what is carried over from the members before; any other member reads both. -/
inductive RealizesBody (blueprint : Blueprint) :
    Nat → List Feed → Flow → List EntityId → List Node → Nat → Inventory →
      List (List EntityId) → Prop
  | nil {slots first : Nat} {feeds : List Feed} {flow : Flow} {carried : List EntityId} :
      RealizesBody blueprint slots feeds flow carried [] first (.relays 0) []
  | step {slots first n : Nat} {feeds : List Feed} {flow : Flow} {carried : List EntityId}
      {step : Step} {rest : List Node} {made : Inventory} {ends : List (List EntityId)}
      (hw : blueprint.Works ⟨first, flow.feeds⟩ (.arithmetic step.left step.op step.right step.out))
      (hc : ∀ prior ∈ carried,
        blueprint.Linked (busColor blueprint feeds) ⟨prior, .output⟩ ⟨first, .input⟩)
      (hr : RealizesBody blueprint slots feeds (flow.behind [first])
        (carried ++ flow.carried [first]) rest (first + (n + 1)) made ends) :
      RealizesBody blueprint slots feeds flow carried (.step step :: rest) first
        (.single slots (.arithmetic step.left step.op step.right step.out) flow.feeds first n ++ made)
        ([first] :: ends)
  | member {slots first : Nat} {feeds : List Feed} {flow : Flow} {carried : List EntityId}
      {node : Node} {rest : List Node} {one two : Inventory} {firstEnds : List EntityId}
      {ends : List (List EntityId)} (hn : ∀ step, node ≠ .step step)
      (hm : Realizes blueprint slots (flow.feeds ++ carried.map .entity) node first one firstEnds)
      (hr : RealizesBody blueprint slots feeds (flow.behind firstEnds)
        (carried ++ flow.carried firstEnds) rest (first + one.size) two ends) :
      RealizesBody blueprint slots feeds flow carried (node :: rest) first (one ++ two)
        (firstEnds :: ends)

/-- Constructs that all read the same feeds, and all their ends. -/
inductive RealizesMembers (blueprint : Blueprint) :
    Nat → List Feed → List Node → Nat → Inventory → List EntityId → Prop
  | nil {slots first : Nat} {feeds : List Feed} :
      RealizesMembers blueprint slots feeds [] first (.relays 0) []
  | cons {slots first : Nat} {feeds : List Feed} {node : Node} {rest : List Node}
      {one two : Inventory} {firstEnds ends : List EntityId}
      (hm : Realizes blueprint slots feeds node first one firstEnds)
      (hr : RealizesMembers blueprint slots feeds rest (first + one.size) two ends) :
      RealizesMembers blueprint slots feeds (node :: rest) first (one ++ two) (firstEnds ++ ends)

/-- A side of a comparison. -/
inductive RealizesSide (blueprint : Blueprint) :
    Nat → List Feed → Side → Nat → Inventory → List EntityId → Prop
  | value {slots first : Nat} {feeds : List Feed} {operand : Operand} :
      RealizesSide blueprint slots feeds (.value operand) first (.relays 0) []
  | series {slots first : Nat} {feeds : List Feed} {scope : Scope} {body : List Node}
      {made : Inventory} {ends : List (List EntityId)}
      (h : RealizesBody blueprint slots feeds (.series feeds) [] body first made ends) :
      RealizesSide blueprint slots feeds (.series scope body) first made (ends.getLast?.getD [])

end

variable {blueprint : Blueprint} {slots first n : Nat} {condition : Condition} {feeds : List Feed}
  {id : EntityId} {conditions conditions' : List Condition} {inventory inventory' : Inventory}
  {placed : List Placement}

/-- The combinators of an inventory have some payloads, in order, and are fed. -/
structure Inventory.Carries (blueprint : Blueprint) (inventory : Inventory)
    (conditions : List Condition) : Prop where
  items : inventory.items.filterMap (fun item => item) = conditions
  works : List.Forall₂ blueprint.Works inventory.placed conditions

namespace Inventory

theorem Carries.length_eq (h : inventory.Carries blueprint conditions) :
    inventory.placed.length = conditions.length := h.works.length_eq

theorem carries_relays : (relays n).Carries blueprint [] := by
  refine ⟨List.filterMap_eq_nil_iff.mpr fun item hi => ?_, .nil⟩
  exact List.eq_of_mem_replicate hi

theorem carries_closing {slot : Nat} {readers : List EntityId} :
    (closing slot readers).Carries blueprint [] := ⟨rfl, .nil⟩

theorem carries_single (h : blueprint.Works ⟨id, feeds⟩ condition) :
    (single slots condition feeds id n).Carries blueprint [condition] :=
  ⟨congrArg (condition :: ·) (@carries_relays blueprint n).items, .cons h .nil⟩

theorem Carries.append (h : inventory.Carries blueprint conditions)
    (h' : inventory'.Carries blueprint conditions') :
    (inventory ++ inventory').Carries blueprint (conditions ++ conditions') where
  items := by rw [items_append, List.filterMap_append, h.items, h'.items]
  works := List.rel_append h.works h'.works

/-- What carries nothing may stand behind. -/
theorem Carries.append_nil (h : inventory.Carries blueprint conditions)
    (h' : inventory'.Carries blueprint []) :
    (inventory ++ inventory').Carries blueprint conditions := by
  have hall := h.append h'
  rwa [List.append_nil] at hall

end Inventory

open Inventory

theorem Row.carries (h : Row blueprint slots first placed conditions inventory) :
    inventory.Carries blueprint conditions := by
  induction h with
  | nil => exact carries_relays
  | cons hw _ ih => exact (carries_single hw).append ih

mutual

/-- A construct consists of the combinators for its payloads, in order. -/
theorem Realizes.carries : {slots : Nat} → {feeds : List Feed} → {node : Node} → {first : Nat} →
    {inventory : Inventory} → {ends : List EntityId} →
    Realizes blueprint slots feeds node first inventory ends →
    inventory.Carries blueprint (payloads node)
  | _, _, _, _, _, _, .step hw => carries_single hw
  | _, _, _, _, _, _, .series h => h.carries
  | _, _, _, _, _, _, .parallel h => h.carries
  | _, _, _, _, _, _, .chain _ _ h _ =>
    carries_relays.append (h.carries.append_nil carries_relays)
  | _, _, _, _, _, _, .compare hl hr hw => by
    rw [payloads, if_neg Bool.false_ne_true, List.append_nil, List.append_assoc]
    exact hl.carries.append (hr.carries.append (carries_single hw))
  | _, _, _, _, _, _, .negated h hw => by
    have hd := h.carries
    rw [payloads, if_neg Bool.false_ne_true, List.append_nil] at hd
    rw [payloads, if_pos rfl]
    exact hd.append (carries_single hw)
  | _, _, _, _, _, _, .and h hw => h.carries.append (carries_single hw)
  | _, _, _, _, _, _, .or h hw => h.carries.append (carries_single hw)
  | _, _, _, _, _, _, .conditional ht hb hg _ =>
    ht.carries.append (hb.carries.append
      (carries_closing.append (hg.carries.append_nil carries_relays)))

theorem RealizesBody.carries : {slots : Nat} → {feeds : List Feed} → {flow : Flow} →
    {carried : List EntityId} → {body : List Node} → {first : Nat} → {inventory : Inventory} →
    {ends : List (List EntityId)} →
    RealizesBody blueprint slots feeds flow carried body first inventory ends →
    inventory.Carries blueprint (bodyPayloads body)
  | _, _, _, _, _, _, _, _, .nil => carries_relays
  | _, _, _, _, _, _, _, _, .step hw _ hr => (carries_single hw).append hr.carries
  | _, _, _, _, _, _, _, _, .member _ hm hr => hm.carries.append hr.carries

theorem RealizesMembers.carries : {slots : Nat} → {feeds : List Feed} → {body : List Node} →
    {first : Nat} → {inventory : Inventory} → {ends : List EntityId} →
    RealizesMembers blueprint slots feeds body first inventory ends →
    inventory.Carries blueprint (bodyPayloads body)
  | _, _, _, _, _, _, .nil => carries_relays
  | _, _, _, _, _, _, .cons hm hr => hm.carries.append hr.carries

theorem RealizesSide.carries : {slots : Nat} → {feeds : List Feed} → {side : Side} → {first : Nat} →
    {inventory : Inventory} → {ends : List EntityId} →
    RealizesSide blueprint slots feeds side first inventory ends →
    inventory.Carries blueprint (sidePayloads side)
  | _, _, _, _, _, _, .value => carries_relays
  | _, _, _, _, _, _, .series h => h.carries

end

theorem exists_works {placement : Placement} (h : List.Forall₂ blueprint.Works placed conditions)
    (hp : placement ∈ placed) : ∃ condition ∈ conditions, blueprint.Works placement condition := by
  induction h with
  | nil => cases hp
  | cons hw _ ih =>
    rcases List.mem_cons.mp hp with rfl | hp
    · exact ⟨_, List.mem_cons_self, hw⟩
    · obtain ⟨condition, hm, hw⟩ := ih hp
      exact ⟨condition, List.mem_cons_of_mem _ hm, hw⟩

/-- Whatever a combinator of an inventory was placed to read feeds it. -/
theorem Inventory.Carries.fed (h : inventory.Carries blueprint conditions) :
    ∀ placement ∈ inventory.placed, ∀ id ∈ Feed.entities placement.feeds,
      blueprint.Feeds id placement.id := by
  intro placement hp
  obtain ⟨condition, -, hw⟩ := exists_works h.works hp
  exact hw.feeds

/-- In a series, each step reads every member before it over the bus. -/
theorem RealizesBody.bus {feeds' : List Feed} {carried : List EntityId} {body : List Node}
    {ends : List (List EntityId)}
    (h : RealizesBody blueprint slots feeds (.series feeds') carried body first inventory ends)
    {j : Nat} {step : Step} (hj : body[j]? = some (.step step)) :
    ∃ id, ends[j]? = some [id] ∧ ∀ prior ∈ carried ++ (ends.take j).flatten,
      blueprint.Linked (busColor blueprint feeds) ⟨prior, .output⟩ ⟨id, .input⟩ := by
  induction body generalizing carried first inventory ends j with
  | nil => simp at hj
  | cons node rest ih =>
    cases h with
    | step hw hc hr =>
      cases j with
      | zero =>
        refine ⟨_, rfl, fun prior hp => hc prior ?_⟩
        simpa using hp
      | succ j =>
        obtain ⟨id, hid, hl⟩ := ih hr hj
        refine ⟨id, hid, fun prior hp => hl prior ?_⟩
        simpa [Flow.carried] using hp
    | member hn hm hr =>
      cases j with
      | zero => exact absurd (Option.some.inj hj) (hn step)
      | succ j =>
        obtain ⟨id, hid, hl⟩ := ih hr hj
        refine ⟨id, hid, fun prior hp => hl prior ?_⟩
        simpa [Flow.carried] using hp

end Layout

end CircuitScript
