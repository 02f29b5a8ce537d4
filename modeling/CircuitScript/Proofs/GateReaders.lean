import CircuitScript.Proofs.Emission
/-!
Who reads the gate of a conditional. A gate stands in a slot while the body of its conditional is laid
out, and what names the slot then is collected for it. Slots are numbers that are used again and
again, so it takes the whole nesting to see that every reader finds the gate it was meant for.
-/
namespace CircuitScript.Layout

variable {slots first n : Nat} {condition : Condition} {feeds : List Feed} {id : EntityId}
  {outer outer' : List Nat} {inventory inventory' : Inventory} {placement : Placement}
  {placed placed' : List Placement} {blueprint : Blueprint}

/-- A conditional in a layout. -/
structure Guard where
  looping : Bool
  /-- Where the readers of the gate are collected. -/
  slot : Nat
  /-- What the conditional reads. -/
  feeds : List Feed
  /-- The signal of the test. -/
  out : String
  test : Node
  body : List Node
  /-- The combinators of the test. -/
  tests : List Placement
  /-- The combinators of the body. -/
  inside : List Placement
  gate : Gate

namespace Guard

/-- The combinators of the body that name the slot. -/
def readers (guard : Guard) : List EntityId := collected guard.slot guard.inside

/-- What the conditional is in the program. -/
def source (guard : Guard) : Bool × String × List Node := (guard.looping, guard.out, guard.body)

/-- The conditional whose gate consists of some combinators, the first of which reads what the
conditional reads. -/
def of? (looping : Bool) (slot : Nat) (out : String) (test : Node) (body : List Node)
    (tests inside : List Placement) : List Placement → Option Guard
  | [subtractAll, testOut, subtractOut, oneWay, testAll] =>
    some ⟨looping, slot, subtractAll.feeds, out, test, body, tests, inside,
      ⟨subtractAll.id, testOut.id, subtractOut.id, oneWay.id, testAll.id⟩⟩
  | _ => none

/-- Whatever the gate consists of, the conditional has the slot and the combinators that it is
given. -/
theorem of?_eq_some {looping : Bool} {slot : Nat} {out : String} {test : Node} {body : List Node}
    {tests gate : List Placement} {guard : Guard}
    (h : of? looping slot out test body tests placed gate = some guard) :
    guard.slot = slot ∧ guard.inside = placed := by
  unfold of? at h
  split at h
  · cases h
    exact ⟨rfl, rfl⟩
  · cases h

end Guard

mutual

/-- The conditionals in a construct, for which some slots are open and which consists of the
combinators `placed`, in the order in which they are closed. -/
def guards (slots : Nat) : Node → List Placement → List Guard
  | .chain _ body, placed | .parallel _ body, placed | .series _ body, placed =>
    bodyGuards slots body placed
  | .and _ body _, placed | .or _ body _, placed =>
    bodyGuards slots body (placed.take (bodyPayloads body).length)
  | .conditional looping _ test out body, placed =>
    let tests := placed.take (payloads test).length
    let rest := placed.drop (payloads test).length
    let inside := rest.take (bodyPayloads body).length
    guards slots test tests ++ (bodyGuards (slots + 1) body inside ++
      (Guard.of? looping slots out test body tests inside
        (rest.drop (bodyPayloads body).length)).toList)
  | .compare _ _ left right _, placed =>
    let rest := placed.drop (sidePayloads left).length
    sideGuards slots left (placed.take (sidePayloads left).length) ++
      sideGuards slots right (rest.take (sidePayloads right).length)
  | .step _, _ => []

def bodyGuards (slots : Nat) : List Node → List Placement → List Guard
  | [], _ => []
  | node :: rest, placed =>
    guards slots node (placed.take (payloads node).length) ++
      bodyGuards slots rest (placed.drop (payloads node).length)

def sideGuards (slots : Nat) : Side → List Placement → List Guard
  | .value _, _ => []
  | .series _ body, placed => bodyGuards slots body placed

end

mutual

/-- The conditionals of a construct, in the same order: whether each loops, the signal of its test
and its body. -/
def conditionals : Node → List (Bool × String × List Node)
  | .chain _ body | .parallel _ body | .series _ body | .and _ body _ | .or _ body _ =>
    bodyConditionals body
  | .conditional loops _ test out body =>
    conditionals test ++ (bodyConditionals body ++ [(loops, out, body)])
  | .compare _ _ left right _ => sideConditionals left ++ sideConditionals right
  | .step _ => []

def bodyConditionals : List Node → List (Bool × String × List Node)
  | [] => []
  | node :: rest => conditionals node ++ bodyConditionals rest

def sideConditionals : Side → List (Bool × String × List Node)
  | .value _ => []
  | .series _ body => bodyConditionals body

end

theorem guards_conditional {looping : Bool} {scope : Scope} {test : Node} {out : String}
    {body : List Node} {tests inside : List Placement} {gate : Gate}
    (ht : tests.length = (payloads test).length) (hi : inside.length = (bodyPayloads body).length) :
    guards slots (.conditional looping scope test out body)
      (tests ++ (inside ++ gate.placements feeds)) =
      guards slots test tests ++
        (bodyGuards (slots + 1) body inside ++
          [⟨looping, slots, feeds, out, test, body, tests, inside, gate⟩]) := by
  rw [guards, List.take_left' ht, List.drop_left' ht, List.take_left' hi, List.drop_left' hi]
  rfl

theorem guards_compare {op : Comparator} {negated : Bool} {left right : Side} {out : String}
    {lefts rights rest : List Placement} (hl : lefts.length = (sidePayloads left).length)
    (hr : rights.length = (sidePayloads right).length) :
    guards slots (.compare op negated left right out) (lefts ++ (rights ++ rest)) =
      sideGuards slots left lefts ++ sideGuards slots right rights := by
  rw [guards, List.take_left' hl, List.drop_left' hl, List.take_left' hr]

theorem bodyGuards_append {node : Node} {rest : List Node}
    (h : placed.length = (payloads node).length) :
    bodyGuards slots (node :: rest) (placed ++ placed') =
      guards slots node placed ++ bodyGuards slots rest placed' := by
  rw [bodyGuards, List.take_left' h, List.drop_left' h]

theorem mem_slots {slot : Nat} : slot ∈ Feed.slots feeds ↔ .request slot ∈ feeds := by
  constructor
  · intro h
    obtain ⟨feed, hm, he⟩ := List.mem_filterMap.mp h
    cases feed with
    | entity id => cases he
    | request other => exact Option.some.inj he ▸ hm
  · intro h
    exact List.mem_filterMap.mpr ⟨_, h, rfl⟩

@[simp] theorem slots_append (one two : List Feed) :
    Feed.slots (one ++ two) = Feed.slots one ++ Feed.slots two := List.filterMap_append

@[simp] theorem slots_map_entity (ids : List EntityId) : Feed.slots (ids.map .entity) = [] := by
  induction ids with
  | nil => rfl
  | cons id rest ih => exact ih

theorem slots_behind (flow : Flow) (ends : List EntityId) :
    Feed.slots (flow.behind ends).feeds = [] ∨
      Feed.slots (flow.behind ends).feeds = Feed.slots flow.feeds := by
  cases flow with
  | chained feeds => exact .inl (slots_map_entity ends)
  | shared feeds => exact .inr rfl
  | series feeds => exact .inr rfl

/-- The feeds name open slots, each at most once. -/
structure NamesOpen (slots : Nat) (feeds : List Feed) : Prop where
  once : (Feed.slots feeds).Nodup
  lt : ∀ slot ∈ Feed.slots feeds, slot < slots

theorem namesOpen_of_slots_eq_nil (h : Feed.slots feeds = []) : NamesOpen slots feeds := by
  constructor
  · rw [h]
    exact List.nodup_nil
  · rw [h]
    simp

theorem NamesOpen.congr {feeds' : List Feed} (h : NamesOpen slots feeds)
    (he : Feed.slots feeds' = Feed.slots feeds) : NamesOpen slots feeds' :=
  ⟨he ▸ h.once, he ▸ h.lt⟩

theorem NamesOpen.append_entities (h : NamesOpen slots feeds) (ids : List EntityId) :
    NamesOpen slots (feeds ++ ids.map .entity) :=
  h.congr (by rw [slots_append, slots_map_entity, List.append_nil])

theorem NamesOpen.behind {flow : Flow} (h : NamesOpen slots flow.feeds) (ends : List EntityId) :
    NamesOpen slots (flow.behind ends).feeds := by
  rcases slots_behind flow ends with he | he
  · exact namesOpen_of_slots_eq_nil he
  · exact h.congr he

/-- The slot that is opened next is not among those that are open. -/
theorem NamesOpen.request (h : NamesOpen slots feeds) :
    NamesOpen (slots + 1) (feeds ++ [.request slots]) := by
  have hsplit : Feed.slots (feeds ++ [.request slots]) = Feed.slots feeds ++ [slots] :=
    slots_append _ _
  constructor
  · rw [hsplit, List.nodup_append]
    refine ⟨h.once, by simp, ?_⟩
    rintro slot hs _ hm rfl
    rw [List.mem_singleton] at hm
    exact absurd (h.lt slot hs) (by omega)
  · rw [hsplit]
    intro slot hs
    rcases List.mem_append.mp hs with hs | hs
    · exact Nat.lt_succ_of_lt (h.lt slot hs)
    · rw [List.mem_singleton.mp hs]
      exact Nat.lt_succ_self slots

theorem length_gathered (slot : Nat) (feeds : List Feed) (id : EntityId) :
    (gathered slot feeds id).length = (Feed.slots feeds).count slot := by
  rw [gathered, List.length_map]
  induction feeds with
  | nil => rfl
  | cons feed rest ih =>
    cases feed with
    | entity other => exact ih
    | request other =>
      have hslots : Feed.slots (.request other :: rest) = other :: Feed.slots rest := rfl
      rw [hslots, List.count_cons, ← ih, List.filter_cons]
      by_cases h : other = slot
      · simp [h]
      · simp [h]

theorem mem_gathered {slot : Nat} {reader : EntityId} (h : reader ∈ gathered slot feeds id) :
    reader = id := by
  obtain ⟨_, -, rfl⟩ := List.mem_map.mp h
  rfl

theorem count_gathered (slot : Nat) (feeds : List Feed) (id : EntityId) :
    (gathered slot feeds id).count id = (Feed.slots feeds).count slot := by
  have hall : gathered slot feeds id = List.replicate (gathered slot feeds id).length id :=
    List.eq_replicate_of_mem fun _ ho => mem_gathered ho
  rw [hall, List.count_replicate_self, length_gathered]

theorem mem_ids_of_mem_collected {slot : Nat} (h : id ∈ collected slot placed) :
    id ∈ placed.map Placement.id := by
  obtain ⟨reader, hr, hm⟩ := List.mem_flatMap.mp h
  rw [mem_gathered hm]
  exact List.mem_map_of_mem hr

/-- A combinator is collected as often as it names the slot. -/
theorem count_collected {slot : Nat} (hn : (placed.map Placement.id).Nodup)
    (hp : placement ∈ placed) :
    (collected slot placed).count placement.id = (Feed.slots placement.feeds).count slot := by
  induction placed with
  | nil => cases hp
  | cons other rest ih =>
    obtain ⟨hfresh, hrest⟩ := List.nodup_cons.mp hn
    have hsplit : collected slot (other :: rest) =
        gathered slot other.feeds other.id ++ collected slot rest := rfl
    rw [hsplit, List.count_append]
    rcases List.mem_cons.mp hp with rfl | hp
    · have hnone : (collected slot rest).count placement.id = 0 :=
        List.count_eq_zero.mpr fun hm => hfresh (mem_ids_of_mem_collected hm)
      rw [hnone, count_gathered, Nat.add_zero]
    · have hnone : (gathered slot other.feeds other.id).count placement.id = 0 := by
        refine List.count_eq_zero.mpr fun hm => hfresh ?_
        rw [← mem_gathered hm]
        exact List.mem_map_of_mem hp
      rw [hnone, Nat.zero_add, ih hrest hp]

/-- The slots that are closed, with their readers. -/
def closings (events : List SlotEvent) : List (Nat × List EntityId) :=
  events.filterMap fun
    | .asked .. => none
    | .closed slot readers => some (slot, readers)

/-- The conditional is there: its combinators are those of its test and of its body. Its gate passes
everything while the test holds, and while it loops, what the gate puts out reaches the readers in
the body over green wires and the ends of the test over red ones. -/
structure Guard.Fed (blueprint : Blueprint) (guard : Guard) : Prop where
  test : ∃ first inventory ends,
    Realizes blueprint guard.slot guard.feeds guard.test first inventory ends ∧
    inventory.placed = guard.tests ∧ (guard.looping = true → ∀ id ∈ ends,
      blueprint.Linked .red ⟨guard.gate.testAll, .output⟩ ⟨id, .input⟩)
  body : ∃ first inventory ends, RealizesBody blueprint (guard.slot + 1) guard.feeds
    (.shared (guard.feeds ++ [.request guard.slot])) [] guard.body first inventory ends ∧
    inventory.placed = guard.inside
  testAll : blueprint.Holds guard.gate.testAll
    (.decider (.signal guard.out) .eq (.constant 1) everything true)
  readers : guard.looping = true → ∀ id ∈ guard.readers,
    blueprint.Linked .green ⟨guard.gate.testAll, .output⟩ ⟨id, .input⟩

/-- What some conditionals account for: they are the conditionals of a program, they are there in
full, and closed one after the other with their readers. Whatever names a slot does so once and while
the slot is open, and the slot is one of the `outer` ones or belongs to a conditional that is around
it. -/
structure Accounts (blueprint : Blueprint) (outer : List Nat) (inventory : Inventory)
    (guards : List Guard) (written : List (Bool × String × List Node)) : Prop where
  written : guards.map Guard.source = written
  fed : ∀ guard ∈ guards, guard.Fed blueprint
  closed : closings inventory.events = guards.map fun guard => (guard.slot, guard.readers)
  asked : ∀ slot reader count, .asked slot reader count ∈ inventory.events →
    slot < count ∧ ∃ placement ∈ inventory.placed, placement.id = reader ∧
      slot ∈ Feed.slots placement.feeds
  once : ∀ placement ∈ inventory.placed, (Feed.slots placement.feeds).Nodup
  owned : ∀ placement ∈ inventory.placed, ∀ slot ∈ Feed.slots placement.feeds,
    slot ∈ outer ∨ ∃ guard ∈ guards, guard.slot = slot ∧ placement ∈ guard.inside

namespace Accounts

variable {guards guards' : List Guard} {written written' : List (Bool × String × List Node)}

theorem relays : Accounts blueprint outer (.relays n) [] [] := by
  constructor <;> simp [Inventory.relays, closings]

theorem append (h : Accounts blueprint outer inventory guards written)
    (h' : Accounts blueprint outer inventory' guards' written') :
    Accounts blueprint outer (inventory ++ inventory') (guards ++ guards') (written ++ written') where
  written := by rw [List.map_append, h.written, h'.written]
  fed := by
    intro guard hg
    rcases List.mem_append.mp hg with hg | hg
    · exact h.fed guard hg
    · exact h'.fed guard hg
  closed := by
    rw [Inventory.events_append, List.map_append, ← h.closed, ← h'.closed]
    exact List.filterMap_append
  asked := by
    intro slot reader count hm
    rcases List.mem_append.mp hm with hm | hm
    · obtain ⟨hlt, placement, hp, hreads⟩ := h.asked slot reader count hm
      exact ⟨hlt, placement, List.mem_append_left _ hp, hreads⟩
    · obtain ⟨hlt, placement, hp, hreads⟩ := h'.asked slot reader count hm
      exact ⟨hlt, placement, List.mem_append_right _ hp, hreads⟩
  once := by
    intro placement hp
    rcases List.mem_append.mp hp with hp | hp
    · exact h.once placement hp
    · exact h'.once placement hp
  owned := by
    intro placement hp slot hs
    rcases List.mem_append.mp hp with hp | hp
    · refine (h.owned placement hp slot hs).imp_right ?_
      rintro ⟨guard, hg, hguard⟩
      exact ⟨guard, List.mem_append_left _ hg, hguard⟩
    · refine (h'.owned placement hp slot hs).imp_right ?_
      rintro ⟨guard, hg, hguard⟩
      exact ⟨guard, List.mem_append_right _ hg, hguard⟩

/-- What does nothing to slots of its own may stand behind. -/
theorem append_nil (h : Accounts blueprint outer inventory guards written)
    (h' : Accounts blueprint outer inventory' [] []) :
    Accounts blueprint outer (inventory ++ inventory') guards written := by
  have hall := h.append h'
  rwa [List.append_nil, List.append_nil] at hall

theorem mono (h : Accounts blueprint outer inventory guards written) (hs : outer ⊆ outer') :
    Accounts blueprint outer' inventory guards written :=
  { h with owned := fun placement hp slot hm => (h.owned placement hp slot hm).imp_left (@hs slot) }

theorem single (h : NamesOpen slots feeds) (hs : Feed.slots feeds ⊆ outer) :
    Accounts blueprint outer (.single slots condition feeds id n) [] [] where
  written := rfl
  fed := by simp
  closed := by
    refine List.filterMap_eq_nil_iff.mpr fun event he => ?_
    obtain ⟨slot, -, rfl⟩ := List.mem_map.mp he
    rfl
  asked := by
    intro slot reader count hm
    obtain ⟨other, ho, he⟩ := List.mem_map.mp hm
    cases he
    exact ⟨h.lt slot ho, _, List.mem_singleton_self _, rfl, ho⟩
  once := by
    intro placement hp
    rw [List.mem_singleton.mp hp]
    exact h.once
  owned := by
    intro placement hp slot hm
    rw [List.mem_singleton.mp hp] at hm
    exact .inl (hs hm)

/-- A conditional takes its slot away from what its body may name, and owns what names it there. -/
theorem close {guard : Guard} (h : Accounts blueprint (outer ++ [guard.slot]) inventory guards written)
    (hi : guard.inside = inventory.placed) (hf : guard.Fed blueprint) :
    Accounts blueprint outer (inventory ++ .closing guard.slot guard.readers) (guards ++ [guard])
      (written ++ [guard.source]) where
  written := by rw [List.map_append, h.written]; rfl
  fed := by
    intro other ho
    rcases List.mem_append.mp ho with ho | ho
    · exact h.fed other ho
    · exact List.mem_singleton.mp ho ▸ hf
  closed := by
    rw [Inventory.events_append, List.map_append, ← h.closed]
    exact List.filterMap_append
  asked := by
    intro slot reader count hm
    rcases List.mem_append.mp hm with hm | hm
    · obtain ⟨hlt, placement, hp, hreads⟩ := h.asked slot reader count hm
      exact ⟨hlt, placement, List.mem_append_left _ hp, hreads⟩
    · cases List.mem_singleton.mp hm
  once := by
    intro placement hp
    rw [Inventory.placed_append, Inventory.closing, List.append_nil] at hp
    exact h.once placement hp
  owned := by
    intro placement hp slot hs
    rw [Inventory.placed_append, Inventory.closing, List.append_nil] at hp
    rcases h.owned placement hp slot hs with hm | ⟨other, ho, hother⟩
    · rcases List.mem_append.mp hm with hm | hm
      · exact .inl hm
      · rw [List.mem_singleton.mp hm]
        exact .inr ⟨guard, List.mem_append_right _ (List.mem_singleton_self _), rfl, hi ▸ hp⟩
    · exact .inr ⟨other, List.mem_append_left _ ho, hother⟩

end Accounts

theorem Row.placed_eq {conditions : List Condition}
    (h : Row blueprint slots first placed conditions inventory) : inventory.placed = placed := by
  induction h with
  | nil => rfl
  | cons _ _ ih =>
    rw [Inventory.placed_append, ih]
    rfl

theorem Row.accounts {conditions : List Condition}
    (h : Row blueprint slots first placed conditions inventory)
    (hp : ∀ placement ∈ placed, NamesOpen slots placement.feeds ∧
      Feed.slots placement.feeds ⊆ outer) : Accounts blueprint outer inventory [] [] := by
  induction h with
  | nil => exact .relays
  | cons _ _ ih =>
    obtain ⟨hopen, hs⟩ := hp _ List.mem_cons_self
    exact (Accounts.single hopen hs).append (ih fun other ho => hp other (List.mem_cons_of_mem _ ho))

theorem gate_namesOpen {gate : Gate} (h : NamesOpen slots feeds) :
    ∀ placement ∈ gate.placements feeds, NamesOpen slots placement.feeds ∧
      Feed.slots placement.feeds ⊆ Feed.slots feeds := by
  have hnone : ∀ others : List Feed, Feed.slots others = [] →
      NamesOpen slots others ∧ Feed.slots others ⊆ Feed.slots feeds := by
    intro others ho
    refine ⟨namesOpen_of_slots_eq_nil ho, ?_⟩
    rw [ho]
    exact List.nil_subset _
  intro placement hp
  simp only [Gate.placements, List.mem_cons, List.not_mem_nil, or_false] at hp
  rcases hp with rfl | rfl | rfl | rfl | rfl
  · exact ⟨h, List.Subset.refl _⟩
  · exact hnone [] rfl
  · exact hnone _ rfl
  · exact hnone [] rfl
  · exact hnone [] rfl

theorem slots_behind_subset (flow : Flow) (ends : List EntityId) :
    Feed.slots (flow.behind ends).feeds ⊆ Feed.slots flow.feeds := by
  rcases slots_behind flow ends with he | he
  · rw [he]
    exact List.nil_subset _
  · rw [he]
    exact List.Subset.refl _

theorem accounts_entities (ids : List EntityId) :
    Accounts blueprint outer (.single slots condition (ids.map .entity) id n) [] [] := by
  refine .single (namesOpen_of_slots_eq_nil (slots_map_entity ids)) ?_
  rw [slots_map_entity]
  exact List.nil_subset _

/-- The last combinator of a gate lets everything pass while the test holds. -/
theorem Row.testAll {out : String} {gate : Gate}
    (h : Row blueprint slots first (gate.placements feeds) (Gate.payloads out) inventory) :
    blueprint.Holds gate.testAll (.decider (.signal out) .eq (.constant 1) everything true) := by
  have hworks := h.carries.works
  rw [h.placed_eq] at hworks
  obtain ⟨-, -, -, -, hall, -⟩ : _ ∧ _ ∧ _ ∧ _ ∧ _ ∧ _ := by
    simpa only [Gate.placements, Gate.payloads, List.forall₂_cons] using hworks
  exact hall.holds

mutual

/-- The conditionals of a construct account for all that is done to slots in it. -/
theorem Realizes.accounts : {slots : Nat} → {feeds : List Feed} → {node : Node} → {first : Nat} →
    {inventory : Inventory} → {ends : List EntityId} →
    Realizes blueprint slots feeds node first inventory ends → NamesOpen slots feeds →
    Accounts blueprint (Feed.slots feeds) inventory (guards slots node inventory.placed)
      (conditionals node)
  | _, _, _, _, _, _, .step _, ho => .single ho (List.Subset.refl _)
  | _, _, _, _, _, _, .series h, ho => h.accounts ho
  | _, _, _, _, _, _, .parallel h, ho => h.accounts ho
  | _, feeds, _, _, _, _, @Realizes.chain _ _ _ _ _ _ body made _ _ _ h _, _ => by
    have hbody : Accounts blueprint (Feed.slots feeds) made (bodyGuards _ body made.placed)
        (bodyConditionals body) :=
      (h.accounts (namesOpen_of_slots_eq_nil rfl)).mono (List.nil_subset _)
    have hplaced : ∀ n, (Inventory.relays 1 ++ (made ++ Inventory.relays n)).placed = made.placed :=
      fun _ => List.append_nil _
    rw [hplaced]
    exact Accounts.relays.append (hbody.append_nil .relays)
  | _, feeds, _, _, _, _, .compare hl hr _, ho => by
    rw [Inventory.placed_append, Inventory.placed_append,
      guards_compare hl.carries.length_eq hr.carries.length_eq]
    exact (hl.accounts ho).append
      ((hr.accounts ho).append_nil (.single (ho.append_entities _) (by simp)))
  | _, feeds, _, _, _, _, .negated (.compare hl hr _) _, ho => by
    rw [Inventory.append_assoc, Inventory.append_assoc, Inventory.placed_append,
      Inventory.placed_append, guards_compare hl.carries.length_eq hr.carries.length_eq]
    exact (hl.accounts ho).append ((hr.accounts ho).append_nil
      ((Accounts.single (ho.append_entities _) (by simp)).append_nil (accounts_entities [_])))
  | _, _, _, _, _, _, .and h _, ho => by
    rw [Inventory.placed_append, guards, List.take_left' h.carries.length_eq]
    exact (h.accounts ho).append_nil (accounts_entities _)
  | _, _, _, _, _, _, .or h _, ho => by
    rw [Inventory.placed_append, guards, List.take_left' h.carries.length_eq]
    exact (h.accounts ho).append_nil (accounts_entities _)
  | slots, feeds, _, _, _, _, @Realizes.conditional _ _ _ n _ loops _ test out body tested made _ _ _
      gate ht hb hg hw, ho => by
    have hplaced : ∀ tested gated : Inventory, ∀ readers n, gated.placed = gate.placements feeds →
        (tested ++ (made ++ (Inventory.closing slots readers ++ (gated ++ .relays n)))).placed =
          tested.placed ++ (made.placed ++ gate.placements feeds) := by
      intro tested gated readers n he
      simp [Inventory.closing, Inventory.relays, he]
    rw [hplaced _ _ _ _ hg.placed_eq, guards_conditional ht.carries.length_eq hb.carries.length_eq]
    -- In the body the slot is open as well; behind it, what names the slot belongs to the gate.
    have hbody := hb.accounts ho.request
    have hsplit : Feed.slots (feeds ++ [.request slots]) = Feed.slots feeds ++ [slots] :=
      slots_append _ _
    rw [Flow.feeds, hsplit] at hbody
    have hfed : Guard.Fed blueprint
        ⟨loops, slots, feeds, out, test, body, tested.placed, made.placed, gate⟩ :=
      ⟨⟨_, _, _, ht, rfl, fun hl => (hw.looped hl).2⟩, ⟨_, _, _, hb, rfl⟩, hg.testAll,
        fun hl => (hw.looped hl).1⟩
    have hclosed := hbody.close rfl hfed
    have hgate := (hg.accounts (gate_namesOpen ho)).append_nil (Accounts.relays (n := n))
    have hall := (ht.accounts ho).append (hclosed.append_nil hgate)
    rwa [Inventory.append_assoc] at hall

theorem RealizesBody.accounts : {slots : Nat} → {feeds : List Feed} → {flow : Flow} →
    {carried : List EntityId} → {body : List Node} → {first : Nat} → {inventory : Inventory} →
    {ends : List (List EntityId)} →
    RealizesBody blueprint slots feeds flow carried body first inventory ends →
    NamesOpen slots flow.feeds →
    Accounts blueprint (Feed.slots flow.feeds) inventory (bodyGuards slots body inventory.placed)
      (bodyConditionals body)
  | _, _, _, _, _, _, _, _, .nil, _ => .relays
  | _, _, _, _, _, _, _, _, .step _ _ hr, ho =>
    (Accounts.single ho (List.Subset.refl _)).append
      ((hr.accounts (ho.behind _)).mono (slots_behind_subset _ _))
  | _, _, _, _, _, _, _, _, .member _ hm hr, ho => by
    rw [Inventory.placed_append, bodyGuards_append hm.carries.length_eq]
    have hone := hm.accounts (ho.append_entities _)
    rw [slots_append, slots_map_entity, List.append_nil] at hone
    exact hone.append ((hr.accounts (ho.behind _)).mono (slots_behind_subset _ _))

theorem RealizesMembers.accounts : {slots : Nat} → {feeds : List Feed} → {body : List Node} →
    {first : Nat} → {inventory : Inventory} → {ends : List EntityId} →
    RealizesMembers blueprint slots feeds body first inventory ends → NamesOpen slots feeds →
    Accounts blueprint (Feed.slots feeds) inventory (bodyGuards slots body inventory.placed)
      (bodyConditionals body)
  | _, _, _, _, _, _, .nil, _ => .relays
  | _, _, _, _, _, _, .cons hm hr, ho => by
    rw [Inventory.placed_append, bodyGuards_append hm.carries.length_eq]
    exact (hm.accounts ho).append (hr.accounts ho)

theorem RealizesSide.accounts : {slots : Nat} → {feeds : List Feed} → {side : Side} →
    {first : Nat} → {inventory : Inventory} → {ends : List EntityId} →
    RealizesSide blueprint slots feeds side first inventory ends → NamesOpen slots feeds →
    Accounts blueprint (Feed.slots feeds) inventory (sideGuards slots side inventory.placed)
      (sideConditionals side)
  | _, _, _, _, _, _, .value, _ => .relays
  | _, _, _, _, _, _, .series h, ho => h.accounts ho

end

/-- Conditionals among some combinators. Slots are used again, but never inside each other: two
conditionals that have the same slot share no combinator. -/
structure Nested (slots : Nat) (placed : List Placement) (guards : List Guard) : Prop where
  slot : ∀ guard ∈ guards, slots ≤ guard.slot
  inside : ∀ guard ∈ guards, guard.inside.Sublist placed
  apart : placed.Nodup → guards.Pairwise fun one two =>
    one.slot = two.slot → ∀ placement ∈ one.inside, placement ∉ two.inside

namespace Nested

variable {guards guards' : List Guard}

theorem nil : Nested slots placed [] := by
  constructor <;> simp

theorem mono (h : Nested slots placed guards) (hp : placed.Sublist placed') :
    Nested slots placed' guards where
  slot := h.slot
  inside := fun guard hg => (h.inside guard hg).trans hp
  apart := fun hn => h.apart (hn.sublist hp)

/-- Conditionals among different combinators. -/
theorem append (h : Nested slots placed guards) (h' : Nested slots placed' guards') :
    Nested slots (placed ++ placed') (guards ++ guards') where
  slot := by
    intro guard hg
    rcases List.mem_append.mp hg with hg | hg
    · exact h.slot guard hg
    · exact h'.slot guard hg
  inside := by
    intro guard hg
    rcases List.mem_append.mp hg with hg | hg
    · exact (h.inside guard hg).trans (List.sublist_append_left _ _)
    · exact (h'.inside guard hg).trans (List.sublist_append_right _ _)
  apart := by
    intro hn
    obtain ⟨hone, htwo, hdiffer⟩ := List.nodup_append.mp hn
    refine List.pairwise_append.mpr ⟨h.apart hone, h'.apart htwo, ?_⟩
    intro one ho two ht _ placement hp hp'
    exact hdiffer placement ((h.inside one ho).subset hp) placement ((h'.inside two ht).subset hp')
      rfl

/-- A conditional around others, which have later slots. -/
theorem around {guard : Guard} (h : Nested (guard.slot + 1) placed guards)
    (hi : guard.inside = placed) : Nested guard.slot placed (guards ++ [guard]) where
  slot := by
    intro other ho
    rcases List.mem_append.mp ho with ho | ho
    · exact Nat.le_of_succ_le (h.slot other ho)
    · rw [List.mem_singleton.mp ho]
  inside := by
    intro other ho
    rcases List.mem_append.mp ho with ho | ho
    · exact h.inside other ho
    · rw [List.mem_singleton.mp ho, hi]
  apart := by
    intro hn
    refine List.pairwise_append.mpr ⟨h.apart hn, List.pairwise_singleton _ _, ?_⟩
    intro one ho two ht he
    rw [List.mem_singleton.mp ht] at he
    have hlate := h.slot one ho
    omega

end Nested

mutual

theorem nested_guards (slots : Nat) : (node : Node) → (placed : List Placement) →
    Nested slots placed (guards slots node placed)
  | .chain _ body, placed | .parallel _ body, placed | .series _ body, placed =>
    nested_bodyGuards slots body placed
  | .and _ body _, placed | .or _ body _, placed =>
    (nested_bodyGuards slots body _).mono (List.take_sublist _ _)
  | .conditional looping scope test out body, placed => by
    have htest := nested_guards slots test (placed.take (payloads test).length)
    have hrest : Nested slots (placed.drop (payloads test).length)
        (bodyGuards (slots + 1) body ((placed.drop (payloads test).length).take
          (bodyPayloads body).length) ++
          (Guard.of? looping slots out test body (placed.take (payloads test).length)
            ((placed.drop (payloads test).length).take (bodyPayloads body).length)
            ((placed.drop (payloads test).length).drop (bodyPayloads body).length)).toList) := by
      -- The conditionals of the body have later slots, so only this one can have its own.
      generalize placed.drop (payloads test).length = rest
      generalize placed.take (payloads test).length = tests
      have hbody := nested_bodyGuards (slots + 1) body (rest.take (bodyPayloads body).length)
      refine Nested.mono ?_ (List.take_sublist (bodyPayloads body).length rest)
      cases hguard : Guard.of? looping slots out test body tests
          (rest.take (bodyPayloads body).length) (rest.drop (bodyPayloads body).length) with
      | none =>
        rw [Option.toList_none, List.append_nil]
        exact ⟨fun guard hg => Nat.le_of_succ_le (hbody.slot guard hg), hbody.inside, hbody.apart⟩
      | some guard =>
        obtain ⟨rfl, hi⟩ := Guard.of?_eq_some hguard
        exact hbody.around hi
    have hall := htest.append hrest
    rw [List.take_append_drop] at hall
    exact hall
  | .compare op negated left right out, placed => by
    have hleft := nested_sideGuards slots left (placed.take (sidePayloads left).length)
    have hright := (nested_sideGuards slots right ((placed.drop (sidePayloads left).length).take
      (sidePayloads right).length)).mono (List.take_sublist _ _)
    have hall := hleft.append hright
    rw [List.take_append_drop] at hall
    exact hall
  | .step _, _ => .nil

theorem nested_bodyGuards (slots : Nat) : (body : List Node) → (placed : List Placement) →
    Nested slots placed (bodyGuards slots body placed)
  | [], _ => .nil
  | node :: rest, placed => by
    have hall := (nested_guards slots node (placed.take (payloads node).length)).append
      (nested_bodyGuards slots rest (placed.drop (payloads node).length))
    rw [List.take_append_drop] at hall
    exact hall

theorem nested_sideGuards (slots : Nat) : (side : Side) → (placed : List Placement) →
    Nested slots placed (sideGuards slots side placed)
  | .value _, _ => .nil
  | .series _ body, placed => nested_bodyGuards slots body placed

end

/-- The constructs of a program are laid out one after the other in one draft. -/
theorem run_lowerAll_append {draft : Draft} (front back : List Node) :
    ((lowerAll (front ++ back)).run draft).2 =
      ((lowerAll back).run ((lowerAll front).run draft).2).2 := by
  induction front generalizing draft with
  | nil => rfl
  | cons node rest ih =>
    rw [List.cons_append, lowerAll, lowerAll]
    exact ih

/-- No slot is left open behind any number of constructs. -/
theorem requests_lowerAll (front : List Node) :
    ((lowerAll front).run .empty).2.requests = #[] := by
  obtain ⟨inventory, hl, -⟩ := (yields_lowerAll front).run grounded_empty sound_empty
    (by simp [Draft.Knows])
  exact Array.size_eq_zero_iff.mp hl.requests_size

/-- Every combinator has its own number. -/
theorem nodup_combinators (script : Script) : script.draft.2.blueprint.combinators.Nodup := by
  refine List.Nodup.sublist (List.Sublist.map _ List.filter_sublist) ?_
  exact map_id_draft script ▸ List.nodup_range

theorem nodup_placements (script : Script) :
    (script.draft.2.placements.reverse.map Placement.id).Nodup := by
  obtain ⟨inventory, hl, -⟩ := draft_realizes script
  obtain ⟨-, hplaced, hcombinators, -⟩ := leaves_empty hl
  rw [hplaced, ← hcombinators]
  exact nodup_combinators script

end CircuitScript.Layout

namespace CircuitScript

/-- The conditionals in the layout of a program. -/
def Script.guards (script : Script) : List Layout.Guard :=
  Layout.bodyGuards 0 script.body script.draft.2.placements.reverse

namespace Layout

/-- The conditionals of a program account for all that its layout does to slots. -/
theorem accounts_draft (script : Script) : ∃ inventory,
    script.draft.2.placements.reverse = inventory.placed ∧
    script.draft.2.slotEvents.reverse = inventory.events ∧
    Accounts script.lower.blueprint [] inventory script.guards (bodyConditionals script.body) := by
  obtain ⟨inventory, hl, hr⟩ := draft_realizes script
  obtain ⟨-, hplaced, -, hevents, -⟩ := leaves_empty hl
  have haccounts := hr.accounts (namesOpen_of_slots_eq_nil rfl)
  rw [← hplaced] at haccounts
  exact ⟨inventory, hplaced, hevents, haccounts⟩

/-- Every reader of a gate is collected for the gate that it was meant for. The conditionals of a
program are closed one after the other, each with exactly those combinators of its body that name its
slot, each of them once, and the values of a loop reach all of them over green wires. A slot that is
named is open then, and belongs to one conditional around the combinator that names it. Behind every
construct at the top, no slot is left open. -/
theorem gate_readers (script : Script) :
    script.guards.map Guard.source = bodyConditionals script.body ∧
    closings script.draft.2.slotEvents.reverse =
      script.guards.map (fun guard => (guard.slot, guard.readers)) ∧
    (∀ guard ∈ script.guards, guard.Fed script.lower.blueprint ∧
      (∀ placement ∈ guard.inside, .request guard.slot ∈ placement.feeds →
        guard.readers.count placement.id = 1) ∧
      ∀ id ∈ guard.readers, ∃ placement ∈ guard.inside,
        placement.id = id ∧ .request guard.slot ∈ placement.feeds) ∧
    (∀ slot reader slots, .asked slot reader slots ∈ script.draft.2.slotEvents →
      slot < slots ∧ ∃ placement ∈ script.draft.2.placements,
        placement.id = reader ∧ .request slot ∈ placement.feeds) ∧
    (∀ placement ∈ script.draft.2.placements, ∀ slot, .request slot ∈ placement.feeds →
      ∃ guard ∈ script.guards, guard.slot = slot ∧ placement ∈ guard.inside) ∧
    (script.guards.Pairwise fun one two =>
      one.slot = two.slot → ∀ placement ∈ one.inside, placement ∉ two.inside) ∧
    ∀ front back, script.body = front ++ back →
      ((lowerAll front).run .empty).2.requests = #[] ∧
      script.draft.2 = ((lowerAll back).run ((lowerAll front).run .empty).2).2 := by
  obtain ⟨inventory, hplaced, hevents, haccounts⟩ := accounts_draft script
  have hnested := nested_bodyGuards 0 script.body script.draft.2.placements.reverse
  have hids := nodup_placements script
  refine ⟨haccounts.written, ?_, ?_, ?_, ?_, hnested.apart (.of_map _ hids), ?_⟩
  · rw [hevents]
    exact haccounts.closed
  · intro guard hg
    have hinside := hnested.inside guard hg
    refine ⟨haccounts.fed guard hg, fun placement hp hr => ?_, fun id hid => ?_⟩
    · rw [Guard.readers, count_collected (hids.sublist (hinside.map _)) hp]
      refine List.count_eq_one_of_mem (haccounts.once placement ?_) (mem_slots.mpr hr)
      rw [← hplaced]
      exact hinside.subset hp
    · obtain ⟨placement, hp, hgathered⟩ := List.mem_flatMap.mp hid
      refine ⟨placement, hp, (mem_gathered hgathered).symm, ?_⟩
      obtain ⟨feed, hf, -⟩ := List.mem_map.mp hgathered
      obtain ⟨hf, heq⟩ := List.mem_filter.mp hf
      exact of_decide_eq_true heq ▸ hf
  · intro slot reader slots hasked
    rw [← List.mem_reverse, hevents] at hasked
    obtain ⟨hlt, placement, hp, hid, hs⟩ := haccounts.asked slot reader slots hasked
    rw [← hplaced, List.mem_reverse] at hp
    exact ⟨hlt, placement, hp, hid, mem_slots.mp hs⟩
  · intro placement hp slot hs
    rw [← List.mem_reverse, hplaced] at hp
    exact (haccounts.owned placement hp slot (mem_slots.mpr hs)).resolve_left List.not_mem_nil
  · intro front back hbody
    refine ⟨requests_lowerAll front, ?_⟩
    rw [Script.draft, hbody]
    exact run_lowerAll_append front back

end Layout

end CircuitScript
