import CircuitScript.Proofs.GateReaders
import CircuitScript.Proofs.ScriptShape
/-!
What the condition of a loop reads. The looped values come out of one combinator of the gate. They
reach the readers in the body over green wires, but of the condition only its ends over red ones, so
whether the rest of the condition sees them depends on what else the loop is wired to.
-/
namespace CircuitScript

/-- The loops in the layout of a program. -/
def Script.loops (script : Script) : List Layout.Guard := script.guards.filter (·.looping)

namespace Layout

variable {blueprint : Blueprint} {slots : Nat} {feeds : List Feed} {loop : Guard}

/-- The looped values come back to the feeds of the loop, or the condition is one comparison, where
they come to all that it reads. -/
def Guard.FeedsBack (blueprint : Blueprint) (loop : Guard) : Prop :=
  (∃ id ∈ Feed.entities loop.feeds, blueprint.isRelay id = false ∧
    ∃ reader ∈ loop.inside, .request loop.slot ∈ reader.feeds ∧ .entity id ∈ reader.feeds) ∨
  ∃ op left right out, loop.test = .compare op false left right out ∧
    ((∃ id ∈ Feed.entities loop.feeds, blueprint.isRelay id = true) ∨
      ∃ a b, left = .value a ∧ right = .value b)

theorem mem_entities_iff {id : EntityId} : id ∈ Feed.entities feeds ↔ .entity id ∈ feeds := by
  constructor
  · intro h
    obtain ⟨feed, hm, he⟩ := List.mem_filterMap.mp h
    cases feed with
    | entity other => exact Option.some.inj he ▸ hm
    | request slot => cases he
  · intro h
    exact List.mem_filterMap.mpr ⟨_, h, rfl⟩

theorem mem_collected {slot : Nat} {placed : List Placement} {placement : Placement}
    (hp : placement ∈ placed) (hr : .request slot ∈ placement.feeds) :
    placement.id ∈ collected slot placed := by
  refine List.mem_flatMap.mpr ⟨placement, hp, ?_⟩
  exact List.mem_map.mpr ⟨_, List.mem_filter.mpr ⟨hr, by simp⟩, rfl⟩

theorem linked_trans {color : Color} {a b c : Terminal} (h : blueprint.Linked color a b)
    (h' : blueprint.Linked color b c) : blueprint.Linked color a c := .trans _ _ _ h h'

/-- Two combinators that an entity feeds are on one network, of the colour in which it is read. -/
theorem linked_of_feeds {id first second : EntityId} (h : blueprint.Feeds id first)
    (h' : blueprint.Feeds id second) :
    blueprint.Linked (blueprint.feedColor id) ⟨first, .input⟩ ⟨second, .input⟩ :=
  linked_trans (.symm _ _ h) h'

/-- The ends of a comparison are its decider, which reads all that the comparison reads. -/
theorem linked_compare {op : Comparator} {left right : Side} {out : String} {first : Nat}
    {inventory : Inventory} {ends : List EntityId} {source : Terminal}
    (h : Realizes blueprint slots feeds (.compare op false left right out) first inventory ends)
    (he : ∀ id ∈ ends, blueprint.Linked .red source ⟨id, .input⟩) {placement : Placement}
    (hp : placement ∈ inventory.placed)
    (hr : ∀ id ∈ Feed.entities feeds, blueprint.Feeds id placement.id)
    (hf : (∃ id ∈ Feed.entities feeds, blueprint.isRelay id = true) ∨
      ∃ a b, left = .value a ∧ right = .value b) :
    blueprint.Linked .red source ⟨placement.id, .input⟩ := by
  cases h with
  | compare hleft hright hw =>
    have hd := he _ (List.mem_singleton_self _)
    rcases hf with ⟨id, hid, hrelay⟩ | ⟨a, b, rfl, rfl⟩
    · have hin := hw.feeds id (by simp [hid])
      have hl := linked_of_feeds hin (hr id hid)
      rw [Blueprint.feedColor, hrelay] at hl
      exact linked_trans hd hl
    · cases hleft
      cases hright
      rw [List.mem_singleton.mp hp]
      exact hd

/-- A combinator of the condition that reads what the loop reads also reads the looped values. -/
theorem Guard.Fed.linked (hfed : loop.Fed blueprint) (hloops : loop.looping = true)
    {placement : Placement} (hp : placement ∈ loop.tests) (hr : loop.feeds ⊆ placement.feeds)
    (h : loop.FeedsBack blueprint) :
    ∃ color, blueprint.Linked color ⟨loop.gate.testAll, .output⟩ ⟨placement.id, .input⟩ := by
  obtain ⟨first, inventory, ends, htest, hplaced, hends⟩ := hfed.test
  rw [← hplaced] at hp
  have hfeeds := htest.carries.fed placement hp
  have hreads : ∀ id ∈ Feed.entities loop.feeds, blueprint.Feeds id placement.id := by
    intro id hid
    exact hfeeds id (mem_entities_iff.mpr (hr (mem_entities_iff.mp hid)))
  rcases h with ⟨id, hid, hrelay, reader, hreader, hslot, hentity⟩ | ⟨op, left, right, out, he, h⟩
  · refine ⟨.green, linked_trans (hfed.readers hloops _ (mem_collected hreader hslot)) ?_⟩
    obtain ⟨first', inside, ends', hbody, hplaced'⟩ := hfed.body
    rw [← hplaced'] at hreader
    have hin := hbody.carries.fed reader hreader id (mem_entities_iff.mpr hentity)
    have hl := linked_of_feeds hin (hreads id hid)
    rwa [Blueprint.feedColor, hrelay] at hl
  · rw [he] at htest
    exact ⟨.red, linked_compare htest (hends hloops) hp hreads h⟩

/-- A combinator of the condition that reads what the loop reads also reads the looped values,
when these come back to the feeds of the loop or the condition is one comparison. -/
theorem loop_feedback (script : Script) {loop : Guard} (hl : loop ∈ script.loops)
    {placement : Placement} (hp : placement ∈ loop.tests) (hr : loop.feeds ⊆ placement.feeds)
    (h : loop.FeedsBack script.lower.blueprint) :
    ∃ color, script.lower.blueprint.Linked color ⟨loop.gate.testAll, .output⟩
      ⟨placement.id, .input⟩ := by
  obtain ⟨hguard, hloops⟩ := List.mem_filter.mp hl
  obtain ⟨inventory, -, -, haccounts⟩ := accounts_draft script
  exact (haccounts.fed loop hguard).linked hloops hp hr h

/-- The parts of a loop that say where it stands. -/
def Guard.parts (loop : Guard) : Nat × List Feed × List Placement × List Placement × EntityId :=
  (loop.slot, loop.feeds, loop.tests, loop.inside, loop.gate.testAll)

theorem exists_loop {loops : List Guard} {feeds : List Feed} {tests inside : List Placement}
    {slot testAll : Nat} (h : loops.map Guard.parts = [(slot, feeds, tests, inside, testAll)]) :
    ∃ loop ∈ loops, loop.slot = slot ∧ loop.feeds = feeds ∧ loop.tests = tests ∧
      loop.inside = inside ∧ loop.gate.testAll = testAll := by
  obtain ⟨loop, rfl, he⟩ := List.map_eq_singleton_iff.mp h
  cases he
  exact ⟨loop, List.mem_singleton_self _, rfl, rfl, rfl, rfl, rfl⟩

/-- A loop behind a combinator. -/
def countFromOneSource : String :=
  "chain \x7b parallel \x7b a = 1 \x7d while a != 10 \x7b a += 1 \x7d \x7d"

set_option synthInstance.maxSize 400 in
theorem countFromOne_layout : ∃ script, Script.parse countFromOneSource = .ok script ∧
    script.loops.map Guard.parts =
      [(0, [.entity 1], [⟨2, [.entity 1]⟩, ⟨3, [.entity 2]⟩],
        [⟨4, [.entity 1, .request 0]⟩, ⟨5, [.entity 1, .request 0]⟩, ⟨6, [.entity 1, .request 0]⟩],
        11)] ∧
    script.lower.blueprint.isRelay 1 = false := by
  refine Script.exists_parse ?_
  decide +kernel

theorem loop_feedback_countFromOne :
    ∃ script, Script.parse countFromOneSource = .ok script ∧
      ∃ loop ∈ script.loops, loop.FeedsBack script.lower.blueprint ∧
        ∃ placement ∈ loop.tests, loop.feeds ⊆ placement.feeds ∧
          ∃ color, script.lower.blueprint.Linked color ⟨loop.gate.testAll, .output⟩
            ⟨placement.id, .input⟩ := by
  obtain ⟨script, hparse, hloops, hrelay⟩ := countFromOne_layout
  obtain ⟨loop, hl, hslot, hfeeds, htests, hinside, -⟩ := exists_loop hloops
  have hback : loop.FeedsBack script.lower.blueprint := by
    refine .inl ⟨1, ?_, hrelay, ⟨4, [.entity 1, .request 0]⟩, ?_⟩
    · simp [hfeeds, Feed.entities]
    · simp [hinside, hslot]
  have hp : ⟨2, [.entity 1]⟩ ∈ loop.tests := by simp [htests]
  have hr : loop.feeds ⊆ [.entity 1] := by simp [hfeeds]
  exact ⟨script, hparse, loop, hl, hback, _, hp, hr, loop_feedback script hl hp hr hback⟩

/-- The same loop behind a relay. -/
def countUpSource : String := "chain \x7b while a != 10 \x7b a += 1 \x7d \x7d"

/-- The terminals that the looped values reach, by colour. -/
def loopNetwork : Color → Terminal → Bool
  | .red, a => a = ⟨10, .output⟩ ∨ a = ⟨11, .input⟩ ∨ a = ⟨2, .input⟩
  | .green, a => a = ⟨10, .output⟩ ∨ a = ⟨8, .output⟩ ∨
    (a.side = .input ∧ 3 ≤ a.entity ∧ a.entity ≤ 5)

set_option synthInstance.maxSize 400 in
theorem countUp_layout : ∃ script, Script.parse countUpSource = .ok script ∧
    script.loops.map Guard.parts =
      [(0, [.entity 0], [⟨1, [.entity 0]⟩, ⟨2, [.entity 1]⟩],
        [⟨3, [.entity 0, .request 0]⟩, ⟨4, [.entity 0, .request 0]⟩,
          ⟨5, [.entity 0, .request 0]⟩], 10)] ∧
    script.lower.blueprint.isRelay 10 = false ∧
    (script.lower.blueprint.wires.all fun wire =>
      loopNetwork wire.color wire.a == loopNetwork wire.color wire.b) = true := by
  refine Script.exists_parse ?_
  decide +kernel

/-- The comparison of a negated condition reads what the loop reads, and no network brings it the
looped values: of the condition these reach only what turns the result around. -/
theorem loop_unread :
    ∃ script, Script.parse countUpSource = .ok script ∧
      ∃ loop ∈ script.loops, Feed.entities loop.feeds ≠ [] ∧
        ∃ placement ∈ loop.tests, loop.feeds ⊆ placement.feeds ∧
          ∀ color, ¬script.lower.blueprint.Linked color ⟨loop.gate.testAll, .output⟩
            ⟨placement.id, .input⟩ := by
  obtain ⟨script, hparse, hloops, hrelay, hwires⟩ := countUp_layout
  obtain ⟨loop, hl, -, hfeeds, htests, -, htestAll⟩ := exists_loop hloops
  refine ⟨script, hparse, loop, hl, ?_, ⟨1, [.entity 0]⟩, ?_, ?_, ?_⟩
  · simp [hfeeds, Feed.entities]
  · simp [htests]
  · simp [hfeeds]
  · intro color hj
    have hstays : ∀ x y, script.lower.blueprint.Wired color x y →
        loopNetwork color x = loopNetwork color y :=
      fun x y hw => eq_of_beq (List.all_eq_true.mp hwires _ hw)
    have hm := Blueprint.mem_of_eqvGen hstays hj
    rw [Blueprint.vertex, Blueprint.terminal, htestAll, hrelay, Blueprint.vertex_input] at hm
    cases color with
    | red => simp [loopNetwork] at hm
    | green => simp [loopNetwork] at hm

end Layout

end CircuitScript
