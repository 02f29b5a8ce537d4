import CircuitScript.Proofs.LayoutRun
/-!
What a plan adds to a draft. An action that follows a plan adds what some inventory lists, and the
gates in the open slots collect the readers in it; the specification of the plan holds of it from
then on, whatever else is laid out. So every construct of a program is there in full.
-/
namespace CircuitScript.Layout

variable {α β : Type} {draft before after later : Draft} {setting : Setting} {frame : Frame}
  {color : Color} {condition : Condition} {feeds : List Feed} {ids ids' loose : List EntityId}
  {ends : α → List EntityId} {spec : Spec α} {action : Build α} {inventory inventory' : Inventory}

theorem act_sound (h : Act before after) (hg : before.Grounded) (hs : before.blueprint.Sound) :
    after.blueprint.Sound := by
  cases h with
  | relay tile => exact Blueprint.sound_create hs
  | stand frame condition feeds =>
    rw [run_bare]
    exact Blueprint.sound_configure (Blueprint.sound_turn (Blueprint.sound_create hs))
  | route color hf ha hb =>
    exact strokes_preserve stroke_sound (route_strokes_anywhere hg hs hf ha hb color) hs
  | note hb hr hg' => exact hb ▸ hs

theorem acts_sound (h : Acts before after) (hg : before.Grounded) (hs : before.blueprint.Sound) :
    after.blueprint.Sound :=
  (@acts_preserve before after (fun draft => draft.blueprint.Sound) act_sound h hg hs).2

/-- A route links its ends, and they stay linked. -/
theorem route_links {blueprint : Blueprint} {first second : Terminal} (hf : frame.Upright)
    (hg : draft.Grounded) (ha : first.entity < draft.blueprint.size)
    (hb : second.entity < draft.blueprint.size)
    (he : ((route frame first second color).run draft).2.blueprint.Extends blueprint) :
    blueprint.Linked color first second := by
  obtain ⟨relays, final, hr, hl, -⟩ := route_spec hg hf ha hb color
  rw [hr] at he
  refine he.linked (hl.grows.lt ha) (hl.grows.lt hb) ?_
  have hj := hl.joined _ List.mem_cons_self _ (List.mem_cons_of_mem _ List.mem_cons_self)
  rw [Blueprint.Linked]
  dsimp only
  rw [hl.grows.vertex ha, hl.grows.vertex hb]
  exact hj

theorem route_adds {first second : Terminal} (hf : frame.Upright) (hg : draft.Grounded)
    (hs : draft.blueprint.Sound) (ha : first.entity < draft.blueprint.size)
    (hb : second.entity < draft.blueprint.size) :
    ∃ n, Adds draft ((route frame first second color).run draft).2 (.relays n) fun _ => [] :=
  strokes_adds (route_strokes_anywhere hg hs hf ha hb color)

/-- A combinator reads a feed: an entity feeds it from then on, a gate collects it. -/
theorem readFeed_adds {id : EntityId} {feed : Feed} (hf : frame.Upright) (hg : draft.Grounded)
    (hs : draft.blueprint.Sound) (hk : draft.Knows (id :: Feed.entities [feed])) :
    (∃ n, Adds draft ((readFeed frame id feed).run draft).2
      ⟨List.replicate n none, [], (Feed.slots [feed]).map (.asked · id draft.requests.size)⟩
      fun slot => gathered slot [feed] id) ∧
    ∀ blueprint, ((readFeed frame id feed).run draft).2.blueprint.Extends blueprint →
      ∀ other ∈ Feed.entities [feed], blueprint.Feeds other id := by
  have hi := hk id List.mem_cons_self
  cases feed with
  | request slot => exact ⟨⟨0, request_adds⟩, fun _ _ _ hm => absurd hm List.not_mem_nil⟩
  | entity other =>
    have ho : other < draft.blueprint.size := hk other (by simp [Feed.entities])
    rw [run_readFeed_entity]
    obtain ⟨n, hadds⟩ := @route_adds draft frame (readColor draft other) ⟨id, .input⟩
      ⟨other, .output⟩ hf hg hs hi ho
    refine ⟨⟨n, hadds⟩, ?_⟩
    intro blueprint he reader hm
    rw [List.mem_singleton.mp hm]
    have hl := route_links hf hg hi ho he
    have hcolor : readColor draft other = blueprint.feedColor other := by
      rw [readColor, Blueprint.feedColor, (hadds.extend.trans he).grows.isRelay ho]
    rw [hcolor] at hl
    exact hl.symm

theorem readFeeds_adds {id : EntityId} (hf : frame.Upright) (hg : draft.Grounded)
    (hs : draft.blueprint.Sound) (hk : draft.Knows (id :: Feed.entities feeds)) :
    (∃ n, Adds draft ((feeds.forM (readFeed frame id)).run draft).2
      ⟨List.replicate n none, [], (Feed.slots feeds).map (.asked · id draft.requests.size)⟩
      fun slot => gathered slot feeds id) ∧
    ∀ blueprint, ((feeds.forM (readFeed frame id)).run draft).2.blueprint.Extends blueprint →
      ∀ other ∈ Feed.entities feeds, blueprint.Feeds other id := by
  induction feeds generalizing draft with
  | nil => exact ⟨⟨0, .refl draft⟩, fun _ _ _ hm => absurd hm List.not_mem_nil⟩
  | cons feed rest ih =>
    have hsplit : Feed.entities (feed :: rest) = Feed.entities [feed] ++ Feed.entities rest :=
      entities_append [feed] rest
    have hfirst : draft.Knows (id :: Feed.entities [feed]) := by
      refine hk.mono (List.cons_subset_cons _ ?_)
      rw [hsplit]
      exact List.subset_append_left _ _
    have hacts := @performs_readFeed frame id feed hf draft hg hfirst
    obtain ⟨⟨m, hadds⟩, hjoined⟩ := readFeed_adds hf hg hs hfirst
    have hrun : ((feed :: rest).forM (readFeed frame id)).run draft =
        (rest.forM (readFeed frame id)).run ((readFeed frame id feed).run draft).2 := rfl
    rw [hrun]
    have hsound := acts_sound hacts hg hs
    have hgrounded := acts_grounded hacts hg
    have hknows := hk.grows (acts_grows hacts hg)
    have hslots := hadds.requests_size
    generalize ((readFeed frame id feed).run draft).2 = read
      at hacts hadds hjoined hsound hgrounded hknows hslots ⊢
    have hrest : read.Knows (id :: Feed.entities rest) := by
      refine hknows.mono (List.cons_subset_cons _ ?_)
      rw [hsplit]
      exact List.subset_append_right _ _
    obtain ⟨⟨n, hadds'⟩, hjoined'⟩ := ih hgrounded hsound hrest
    refine ⟨⟨m + n, ?_⟩, ?_⟩
    · have hall := (hadds.trans hadds').congr fun slot =>
        (gathered_append slot [feed] rest id).symm
      rw [hslots] at hall
      have hsum : Inventory.mk (List.replicate (m + n) none) []
          ((Feed.slots (feed :: rest)).map (.asked · id draft.requests.size)) =
          ⟨List.replicate m none, [], (Feed.slots [feed]).map (.asked · id draft.requests.size)⟩ ++
          ⟨List.replicate n none, [], (Feed.slots rest).map (.asked · id draft.requests.size)⟩ := by
        refine Inventory.ext List.replicate_append_replicate.symm rfl ?_
        rw [show Feed.slots (feed :: rest) = Feed.slots [feed] ++ Feed.slots rest from
          @List.filterMap_append _ _ [feed] rest _, List.map_append]
        rfl
      rw [hsum]
      exact hall
    · intro blueprint he other ho
      rw [hsplit, List.mem_append] at ho
      rcases ho with ho | ho
      · exact hjoined blueprint (hadds'.extend.trans he) other ho
      · exact hjoined' blueprint he other ho

/-- A draft has what an inventory lists in addition, and the gates collected all readers in it. -/
def Leaves (before after : Draft) (inventory : Inventory) : Prop :=
  Adds before after inventory fun slot => collected slot inventory.placed

theorem Leaves.trans (h : Leaves before after inventory) (h' : Leaves after later inventory') :
    Leaves before later (inventory ++ inventory') :=
  (Adds.trans h h').congr fun slot => (collected_append slot _ _).symm

/-- A new combinator with its payload, and all that it was placed to read. -/
theorem place_leaves (hf : frame.Upright) (hg : draft.Grounded) (hs : draft.blueprint.Sound)
    (hk : draft.Knows (Feed.entities feeds)) :
    ((place frame condition feeds).run draft).1 = draft.blueprint.size ∧
    (∃ n, Leaves draft ((place frame condition feeds).run draft).2
      (.single draft.requests.size condition feeds draft.blueprint.size n)) ∧
    ∀ blueprint, ((place frame condition feeds).run draft).2.blueprint.Extends blueprint →
      blueprint.Works ⟨draft.blueprint.size, feeds⟩ condition := by
  obtain ⟨hid, hnew⟩ := @bare_new draft frame condition feeds
  have hact := Act.stand draft frame condition feeds
  have hadds := @bare_adds draft frame condition feeds
  have hentity := @entity?_bare draft frame condition feeds
  rw [run_place]
  have hsound := act_sound hact hg hs
  have hgrounded := act_grounded hact hg
  have hknows := hk.grows (act_grows hact hg)
  have hslots := hadds.requests_size
  generalize (bare frame condition feeds).run draft = made
    at hid hact hnew hadds hentity hsound hgrounded hknows hslots ⊢
  obtain ⟨id, made⟩ := made
  dsimp only at hid hact hnew hadds hentity hsound hgrounded hknows hslots ⊢
  subst hid
  obtain ⟨⟨n, hread⟩, hfeeds⟩ := @readFeeds_adds made frame feeds draft.blueprint.size hf hgrounded
    hsound (hnew.append hknows)
  rw [hslots] at hread
  generalize ((feeds.forM (readFeed frame draft.blueprint.size)).run made).2 = fed at hread hfeeds ⊢
  refine ⟨rfl, ⟨n, ?_⟩, ?_⟩
  · have hgrown : Adds fed ((grow 1).run fed).2 (.relays 0) fun _ => [] := .of_same rfl rfl rfl rfl
    have hall := (hadds.trans hread).trans hgrown
    rw [Inventory.append_relays_zero] at hall
    refine Adds.congr hall fun slot => ?_
    simp [collected, Inventory.single]
  · intro blueprint he
    exact ⟨⟨_, he.entity (hread.extend.entity hentity), rfl, rfl⟩, hfeeds blueprint he⟩

/-- In any draft where some entities exist, the action adds what an inventory lists. What `spec` says
of a blueprint, the number of open slots, the number of the next entity, this inventory and the
result holds for the draft afterwards and for all that it is extended to. -/
structure Yields (ids : List EntityId) (spec : Spec α) (action : Build α) : Prop where
  run : ∀ {draft : Draft}, draft.Grounded → draft.blueprint.Sound → draft.Knows ids →
    ∃ inventory, Leaves draft (action.run draft).2 inventory ∧
      ∀ blueprint, (action.run draft).2.blueprint.Extends blueprint →
        spec blueprint draft.requests.size draft.blueprint.size inventory (action.run draft).1

namespace Yields

theorem mono (h : Yields ids spec action) (hs : ids ⊆ ids') : Yields ids' spec action :=
  ⟨fun hg hd hk => h.run hg hd (hk.mono hs)⟩

theorem imp {spec' : Spec α} (h : Yields ids spec action)
    (hi : ∀ blueprint slots first inventory a,
      spec blueprint slots first inventory a → spec' blueprint slots first inventory a) :
    Yields ids spec' action := by
  refine ⟨fun hg hd hk => ?_⟩
  obtain ⟨inventory, hl, hs⟩ := h.run hg hd hk
  exact ⟨inventory, hl, fun blueprint he => hi _ _ _ _ _ (hs blueprint he)⟩

/-- An action that adds nothing. -/
theorem of_still {P : Blueprint → α → Prop}
    (hb : ∀ draft, (action.run draft).2.blueprint = draft.blueprint)
    (hp : ∀ draft, (action.run draft).2.placements = draft.placements)
    (he : ∀ draft, (action.run draft).2.slotEvents = draft.slotEvents)
    (hr : ∀ draft, (action.run draft).2.requests = draft.requests)
    (h : ∀ {draft : Draft}, draft.Knows ids → ∀ blueprint, draft.blueprint.Extends blueprint →
      P blueprint (action.run draft).1) :
    Yields ids (.still P) action := by
  refine ⟨fun _ _ hk => ⟨_, .of_same (hb _) (hp _) (he _) (hr _), fun blueprint hx => ⟨rfl, ?_⟩⟩⟩
  rw [hb] at hx
  exact h hk blueprint hx

theorem bind {next : α → Build β} {spec' : α → Spec β} (hb : Builds ids ends action)
    (h : Yields ids spec action) (h' : ∀ a, Yields (ends a ++ ids) (spec' a) (next a)) :
    Yields ids (spec.andThen spec') (action >>= next) := by
  constructor
  intro draft hg hd hk
  obtain ⟨ha, hr⟩ := hb.run hg hk
  have hk' := hr.append (hk.grows (acts_grows ha hg))
  obtain ⟨one, hl, hs⟩ := h.run hg hd hk
  obtain ⟨two, hl', hs'⟩ := (h' _).run (acts_grounded ha hg) (acts_sound ha hg hd) hk'
  rw [hl.requests_size, hl.size] at hs'
  exact ⟨one ++ two, hl.trans hl', fun blueprint he =>
    ⟨_, one, two, rfl, hs blueprint (hl'.extend.trans he), hs' blueprint he⟩⟩

end Yields

theorem yields_relay {tile : Position} : Yields ids .relay (put .relay tile) :=
  ⟨fun _ _ _ => ⟨_, relay_adds, fun _ he =>
    ⟨rfl, rfl, he.grows.isRelay_of_isRelay Blueprint.isRelay_create⟩⟩⟩

/-- Whether there is a relay among the feeds does not change later. -/
theorem yields_readsRelay (hs : Feed.entities feeds ⊆ ids) :
    Yields ids
      (.still fun blueprint relayed => relayed = (Feed.entities feeds).any blueprint.isRelay)
      (readsRelay feeds) := by
  refine .of_still (fun _ => rfl) (fun _ => rfl) (fun _ => rfl) (fun _ => rfl)
    fun {draft} hk blueprint he => ?_
  have hsame : ∀ id ∈ Feed.entities feeds,
      blueprint.isRelay id = draft.blueprint.isRelay id := fun id hid =>
    he.grows.isRelay (hk id (hs hid))
  rw [show ((readsRelay feeds).run draft).1 =
    (Feed.entities feeds).any draft.blueprint.isRelay from rfl, Bool.eq_iff_iff, List.any_eq_true,
    List.any_eq_true]
  exact exists_congr fun id => and_congr_right fun hid => by rw [hsame id hid]

theorem yields_place (hf : frame.Upright) (hs : Feed.entities feeds ⊆ ids) :
    Yields ids (.placed condition feeds) (place frame condition feeds) := by
  refine ⟨fun hg hd hk => ?_⟩
  obtain ⟨hid, ⟨n, hl⟩, hw⟩ := @place_leaves _ frame condition feeds hf hg hd (hk.mono hs)
  refine ⟨_, hl, fun blueprint he => ⟨hid, ⟨n, rfl⟩, ?_⟩⟩
  rw [hid]
  exact hw blueprint he

theorem yields_route {first second : Terminal} (hf : frame.Upright) (ha : first.entity ∈ ids)
    (hb : second.entity ∈ ids) :
    Yields ids (.relayed fun blueprint _ => blueprint.Linked color first second)
      (route frame first second color) := by
  refine ⟨fun hg hs hk => ?_⟩
  obtain ⟨n, hadds⟩ := @route_adds _ frame color first second hf hg hs (hk _ ha) (hk _ hb)
  exact ⟨_, hadds, fun blueprint he => ⟨⟨n, rfl⟩, route_links hf hg (hk _ ha) (hk _ hb) he⟩⟩

theorem yields_descend {turned staysOn : Bool} {build : Frame → Build (List EntityId)}
    {spec : Spec (List EntityId)}
    (h : ∀ start, Yields ids spec (build (frame.inner start feeds turned staysOn))) :
    Yields ids spec (descend frame feeds turned staysOn build) := by
  constructor
  intro draft hg hd hk
  rw [run_descend]
  have hstart : Draft.Grounded { draft with grown := 0, poles := [] } :=
    ⟨hg.indexed, by simp, hg.requests⟩
  obtain ⟨inventory, hl, hs⟩ := (h ((here frame).run draft).1).run hstart hd hk
  exact ⟨inventory, ⟨hl.extend, hl.entities, hl.placements, hl.combinators, hl.events, hl.requests⟩,
    hs⟩

/-- The slot that was opened last holds the readers since then, and closing it leaves the others. -/
theorem leaves_closeSlot (h : Leaves (openSlot.run draft).2 after inventory) :
    (closeSlot.run after).1 = collected draft.requests.size inventory.placed ∧
    Leaves draft (closeSlot.run after).2 (inventory ++
      .closing draft.requests.size (collected draft.requests.size inventory.placed)) := by
  have hr : ∀ slot : Nat, after.requests[slot]? =
      (draft.requests.push [])[slot]?.map (· ++ collected slot inventory.placed) := h.requests
  have hsize : after.requests.size = draft.requests.size + 1 :=
    h.requests_size.trans (Array.size_push [])
  have hreaders : (closeSlot.run after).1 = collected draft.requests.size inventory.placed := by
    show after.requests.back?.getD [] = _
    rw [Array.back?_eq_getElem?, hsize, Nat.add_sub_cancel, hr, Array.getElem?_push_size]
    rfl
  refine ⟨hreaders, h.extend, ?_, ?_, ?_, ?_, fun slot => ?_⟩
  · obtain ⟨new, he, hn⟩ := h.entities
    exact ⟨new, he, by rwa [Inventory.items_append, show (Inventory.closing _ _).items = [] from rfl,
      List.append_nil]⟩
  · rw [Inventory.placed_append, show (Inventory.closing _ _).placed = [] from rfl, List.append_nil]
    exact h.placements
  · rw [Inventory.placed_append, show (Inventory.closing _ _).placed = [] from rfl, List.append_nil]
    exact h.combinators
  · rw [Inventory.events_append, List.reverse_append, ← hreaders]
    show .closed (after.requests.size - 1) _ :: after.slotEvents = _
    rw [hsize, Nat.add_sub_cancel]
    exact congrArg _ h.events
  · show after.requests.pop[slot]? = _
    rw [Array.getElem?_pop, hsize, Nat.add_sub_cancel, Inventory.placed_append,
      show (Inventory.closing _ _).placed = [] from rfl, List.append_nil]
    split
    · next hlt => rw [hr, Array.getElem?_push, if_neg (Nat.ne_of_lt hlt)]
    · next hge =>
      rw [Array.getElem?_eq_none (Nat.le_of_not_lt hge)]
      rfl

theorem run_slot {body : Nat → Build α} {next : α → List EntityId → Build β} :
    (do
      let slot ← openSlot
      let a ← body slot
      let readers ← closeSlot
      next a readers : Build β).run draft =
      let laid := (body draft.requests.size).run (openSlot.run draft).2
      let closed := closeSlot.run laid.2
      (next laid.1 closed.1).run closed.2 := rfl

/-- A slot is open while a part of a construct is laid out, and gives the readers in that part. -/
theorem yields_slot {body : Nat → Build α} {next : α → List EntityId → Build β}
    {spec : Nat → Spec α} {spec' : α → List EntityId → Spec β}
    (hb : ∀ slot, Builds ids ends (body slot)) (h : ∀ slot, Yields ids (spec slot) (body slot))
    (h' : ∀ a readers, Yields (readers ++ (ends a ++ ids)) (spec' a readers) (next a readers)) :
    Yields ids (.slotted spec spec')
      (do
        let slot ← openSlot
        let a ← body slot
        let readers ← closeSlot
        next a readers) := by
  constructor
  intro draft hg hd hk
  obtain ⟨ho, -⟩ := builds_openSlot.run hg hk
  have hgo := acts_grounded ho hg
  have hko : (openSlot.run draft).2.Knows ids := hk.grows (acts_grows ho hg)
  obtain ⟨one, hl, hs⟩ := (h draft.requests.size).run hgo hd hko
  obtain ⟨hab, hrb⟩ := (hb draft.requests.size).run hgo hko
  have hgl := acts_grounded hab hgo
  have hdl := acts_sound hab hgo hd
  have hkl := hrb.append (hko.grows (acts_grows hab hgo))
  have hslots : (openSlot.run draft).2.requests.size = draft.requests.size + 1 :=
    Array.size_push []
  rw [hslots] at hs
  rw [run_slot]
  dsimp only
  generalize (body draft.requests.size).run (openSlot.run draft).2 = laid at hl hs hgl hdl hkl ⊢
  obtain ⟨hreaders, hclosed⟩ := leaves_closeSlot hl
  obtain ⟨hac, hrc⟩ := builds_closeSlot.run hgl hkl
  have hkc := hrc.append (hkl.grows (acts_grows hac hgl))
  obtain ⟨two, hl', hs'⟩ := (h' laid.1 (closeSlot.run laid.2).1).run (acts_grounded hac hgl)
    (acts_sound hac hgl hdl) hkc
  refine ⟨_, hclosed.trans hl', fun blueprint he =>
    ⟨laid.1, one, two, Inventory.append_assoc, hs blueprint (hl'.extend.trans he), ?_⟩⟩
  rw [hclosed.requests_size, hclosed.size, Inventory.size_append, Inventory.size_closing,
    Nat.add_zero] at hs'
  rw [← hreaders]
  exact hs' blueprint he

/-- The specification of a plan holds of what the plan adds. -/
theorem Plan.yields (h : Plan setting frame ids loose ends spec action) :
    frame.Upright → Yields (ids ++ loose) spec action := by
  induction h with
  | imp _ hi ih => exact fun hf => (ih hf).imp hi
  | mono _ hs hl ih =>
    exact fun hf => (ih hf).mono (List.append_subset.mpr ⟨List.subset_append_of_subset_left _ hs,
      List.subset_append_of_subset_right _ hl⟩)
  | pure h =>
    exact fun _ => .of_still (fun _ => rfl) (fun _ => rfl) (fun _ => rfl) (fun _ => rfl)
      fun _ _ _ => rfl
  | bind h _ ih ih' =>
    intro hf
    refine (ih hf).bind (h.builds hf) fun a => ?_
    rw [← List.append_assoc]
    exact ih' a hf
  | announce node =>
    exact fun _ => .of_still (fun _ => rfl) (fun _ => rfl) (fun _ => rfl) (fun _ => rfl)
      fun _ _ _ => trivial
  | readsRelay hs => exact fun _ => yields_readsRelay (List.subset_append_of_subset_left _ hs)
  | head hc => exact fun _ => yields_relay
  | @tail _ frame _ _ hc => exact fun _ => ⟨fun {draft} => yields_relay.run⟩
  | place hs => exact fun hf => yields_place hf (List.subset_append_of_subset_left _ hs)
  | route ha hb => exact fun hf => yields_route hf ha hb
  | descend hi _ ih => exact fun hf => yields_descend fun start => ih start (upright_inner hf)
  | test hi h _ ih ih' =>
    intro hf
    have hbuilds := builds_descend fun start => (h start).builds (upright_inner hf)
    have hyields := yields_descend fun start => ih start (upright_inner hf)
    rw [List.append_nil] at hbuilds hyields
    refine (hyields.mono (List.subset_append_left _ _)).bind
      (hbuilds.mono (List.subset_append_left _ _)) fun test => (ih' test hf).mono ?_
    intro id hid
    simp only [List.mem_append] at hid ⊢
    grind
  | slot hi h _ ih ih' =>
    intro hf
    refine yields_slot (fun slot => (h slot).builds hf) (fun slot => ih slot hf)
      fun a readers => (ih' a readers hf).mono ?_
    intro id hid
    simp only [List.mem_append] at hid ⊢
    grind

theorem yields_lowerAll (body : List Node) :
    Yields []
      (fun blueprint slots first inventory ends =>
        RealizesMembers blueprint slots [] body first inventory ends)
      (lowerAll body) := by
  induction body with
  | nil =>
    refine Yields.imp (@Yields.of_still _ [] (Pure.pure []) (fun _ ends => ends = [])
      (fun _ => rfl) (fun _ => rfl) (fun _ => rfl) (fun _ => rfl) fun _ _ _ => rfl) ?_
    rintro blueprint slots first _ _ ⟨rfl, rfl⟩
    exact .nil
  | cons node rest ih =>
    constructor
    intro draft hg hd hk
    rw [run_lowerAll_cons]
    have hplan := plan_lower (.outermost (startBelow draft.blueprint node)) .anywhere node
      node.allowed_anywhere
    have hstart : Draft.Grounded { draft with grown := 0, poles := [] } :=
      ⟨hg.indexed, by simp, hg.requests⟩
    obtain ⟨ha, -⟩ := (hplan.builds rfl).run hstart hk
    obtain ⟨one, hl, hs⟩ := (hplan.yields rfl).run hstart hd hk
    obtain ⟨two, hl', hs'⟩ := ih.run (acts_grounded ha hstart) (acts_sound ha hstart hd)
      (by simp [Draft.Knows])
    rw [hl.requests_size, hl.size] at hs'
    have hone : Leaves draft _ one :=
      ⟨hl.extend, hl.entities, hl.placements, hl.combinators, hl.events, hl.requests⟩
    exact ⟨one ++ two, hone.trans hl', fun blueprint he =>
      .cons (hs blueprint (hl'.extend.trans he)) (hs' blueprint he)⟩

theorem sound_empty : Draft.empty.blueprint.Sound := by
  intro tile id h
  cases h

/-- All that is laid out for a program is listed in an inventory, and the program is there in
full. -/
theorem draft_realizes (script : Script) :
    ∃ inventory, Leaves .empty script.draft.2 inventory ∧
      RealizesMembers script.draft.2.blueprint 0 [] script.body 0 inventory script.draft.1 := by
  obtain ⟨inventory, hl, hs⟩ := (yields_lowerAll script.body).run grounded_empty sound_empty
    (by simp [Draft.Knows])
  exact ⟨inventory, hl, hs _ (.refl _)⟩

/-- What an inventory of all that was ever laid out says of a draft. -/
theorem leaves_empty (h : Leaves .empty draft inventory) :
    List.Forall₂ Entity.Bears draft.blueprint.entities.toList inventory.items ∧
    draft.placements.reverse = inventory.placed ∧
    draft.blueprint.combinators = inventory.placed.map (·.id) ∧
    draft.slotEvents.reverse = inventory.events ∧ draft.requests = #[] := by
  obtain ⟨new, he, hn⟩ := h.entities
  refine ⟨?_, ?_, h.combinators, ?_, Array.size_eq_zero_iff.mp h.requests_size⟩
  · rw [show draft.blueprint.entities.toList = new from he]
    exact hn
  · rw [show draft.placements = inventory.placed.reverse ++ [] from h.placements, List.append_nil,
      List.reverse_reverse]
  · rw [show draft.slotEvents = inventory.events.reverse ++ [] from h.events, List.append_nil,
      List.reverse_reverse]

end CircuitScript.Layout
