import CircuitScript.Layout.Place
import CircuitScript.Proofs.Construction
import CircuitScript.Proofs.Routing
/-!
What can happen to a draft. Relays are put down, combinators are placed and routes are drawn between
entities that exist; what every such act preserves, every run of acts preserves.
-/
namespace CircuitScript.Layout

variable {α β : Type} {draft before after later : Draft} {frame : Frame} {color : Color}
  {condition : Condition} {feeds : List Feed} {ids ids' : List EntityId}

/-- The entities exist. -/
def Draft.Knows (draft : Draft) (ids : List EntityId) : Prop :=
  ∀ id ∈ ids, id < draft.blueprint.size

/-- A new combinator that reads nothing yet. -/
def bare (frame : Frame) (condition : Condition) (feeds : List Feed) : Build EntityId := do
  let id ← put condition.kind (← here frame)
  face id frame.rotation
  load id condition
  modify fun draft => { draft with placements := ⟨id, feeds⟩ :: draft.placements }
  return id

/-- To place a combinator is to put it down without wires, to wire what it reads, and to go on to
the next tile. -/
theorem place_eq :
    place frame condition feeds = (do
      let id ← bare frame condition feeds
      feeds.forM (readFeed frame id)
      grow 1
      return id) := by
  simp only [place, bare, bind_assoc, pure_bind]

theorem run_place :
    (place frame condition feeds).run draft =
      let made := (bare frame condition feeds).run draft
      let fed := ((feeds.forM (readFeed frame made.1)).run made.2).2
      (made.1, ((grow 1).run fed).2) := by
  rw [place_eq]
  rfl

theorem run_bare :
    (bare frame condition feeds).run draft =
      let made := ((put condition.kind ((here frame).run draft).1).run draft).2
      let turned := ((face draft.blueprint.size frame.rotation).run made).2
      let loaded := ((load draft.blueprint.size condition).run turned).2
      (draft.blueprint.size,
        { loaded with placements := ⟨draft.blueprint.size, feeds⟩ :: loaded.placements }) := by
  simp only [bare, StateT.run_bind]
  rfl

theorem entities_bare : ((bare frame condition feeds).run draft).2.blueprint.entities =
    draft.blueprint.entities.push ⟨draft.blueprint.size, condition.kind,
      ((here frame).run draft).1, frame.rotation % 8, some condition⟩ :=
  Blueprint.entities_configure_push Blueprint.entities_turn_create

/-- The new combinator has its payload from the start. -/
theorem entity?_bare :
    ((bare frame condition feeds).run draft).2.blueprint.entity? draft.blueprint.size =
      some ⟨draft.blueprint.size, condition.kind, ((here frame).run draft).1, frame.rotation % 8,
        some condition⟩ := by
  rw [Blueprint.entity?, entities_bare]
  exact Array.getElem?_push_size

theorem wires_bare :
    ((bare frame condition feeds).run draft).2.blueprint.wires = draft.blueprint.wires := by
  rw [run_bare]
  exact Blueprint.wires_configure.trans (Blueprint.wires_turn.trans rfl)

theorem grows_bare :
    draft.blueprint.Grows ((bare frame condition feeds).run draft).2.blueprint := by
  rw [run_bare]
  exact Blueprint.grows_create.trans (Blueprint.grows_turn.trans Blueprint.grows_configure)

/-- The combinator is the entity that its placement names. -/
theorem grounded_bare (h : draft.Grounded) :
    ((bare frame condition feeds).run draft).2.Grounded := by
  refine h.of_grows grows_bare ?_ rfl rfl
  rw [run_bare]
  exact Blueprint.indexed_configure (Blueprint.indexed_turn (Blueprint.indexed_create h.indexed))

/-- The new combinator has the next number. -/
theorem bare_new :
    ((bare frame condition feeds).run draft).1 = draft.blueprint.size ∧
    ((bare frame condition feeds).run draft).2.Knows [draft.blueprint.size] := by
  refine ⟨by rw [run_bare], fun id hid => ?_⟩
  rw [List.mem_singleton.mp hid, Blueprint.size, Blueprint.size, entities_bare, Array.size_push]
  exact Nat.lt_succ_self _

/-- The least changes of a draft. -/
inductive Act : Draft → Draft → Prop
  | relay (draft : Draft) (tile : Position) : Act draft ((put .relay tile).run draft).2
  | stand (draft : Draft) (frame : Frame) (condition : Condition) (feeds : List Feed) :
      Act draft ((bare frame condition feeds).run draft).2
  | route {draft : Draft} {frame : Frame} {first second : Terminal} (color : Color)
      (hf : frame.Upright) (ha : first.entity < draft.blueprint.size)
      (hb : second.entity < draft.blueprint.size) :
      Act draft ((route frame first second color).run draft).2
  | note {draft after : Draft} (hb : after.blueprint = draft.blueprint)
      (hr : after.routes = draft.routes) (hg : after.Grounded) : Act draft after

abbrev Acts : Draft → Draft → Prop := Relation.ReflTransGen Act

theorem Draft.Knows.mono (h : draft.Knows ids) (hs : ids' ⊆ ids) : draft.Knows ids' :=
  fun id hid => h id (hs hid)

theorem Draft.Knows.grows (h : before.Knows ids) (hg : before.blueprint.Grows after.blueprint) :
    after.Knows ids := fun id hid => hg.lt (h id hid)

theorem Draft.Knows.append (h : draft.Knows ids) (h' : draft.Knows ids') :
    draft.Knows (ids ++ ids') := by
  intro id hid
  rcases List.mem_append.mp hid with hid | hid
  · exact h id hid
  · exact h' id hid

/-- No act takes anything away. -/
theorem act_grows (h : Act before after) (hg : before.Grounded) :
    before.blueprint.Grows after.blueprint := by
  cases h with
  | relay tile => exact Blueprint.grows_create
  | stand frame condition feeds => exact grows_bare
  | route color hf ha hb =>
    obtain ⟨relays, final, hr, hl, -⟩ := route_spec hg hf ha hb color
    rw [hr]
    exact hl.grows
  | note hb hr hg' =>
    rw [hb]
    exact .refl _

/-- And none leaves a name for what does not exist. -/
theorem act_grounded (h : Act before after) (hg : before.Grounded) : after.Grounded := by
  cases h with
  | relay tile =>
    exact hg.of_grows Blueprint.grows_create (Blueprint.indexed_create hg.indexed) rfl rfl
  | stand frame condition feeds => exact grounded_bare hg
  | route color hf ha hb =>
    obtain ⟨relays, final, hr, hl, -⟩ := route_spec hg hf ha hb color
    rw [hr]
    exact ⟨hl.grounded.indexed, hl.grounded.poles, hl.grounded.requests⟩
  | note hb hr hg' => exact hg'

/-- Whatever each act preserves, a run of acts preserves. -/
theorem acts_preserve {P : Draft → Prop}
    (hP : ∀ {before after}, Act before after → before.Grounded → P before → P after)
    (h : Acts before after) (hg : before.Grounded) (hb : P before) : after.Grounded ∧ P after := by
  induction h with
  | refl => exact ⟨hg, hb⟩
  | tail _ ha ih => exact ⟨act_grounded ha ih.1, hP ha ih.1 ih.2⟩

theorem acts_grows (h : Acts before after) (hg : before.Grounded) :
    before.blueprint.Grows after.blueprint := by
  have hP := @acts_preserve before after (fun draft => before.blueprint.Grows draft.blueprint)
    (fun ha hg hb => hb.trans (act_grows ha hg)) h hg (.refl _)
  exact hP.2

/-- By induction on the acts. -/
theorem acts_grounded (h : Acts before after) (hg : before.Grounded) : after.Grounded :=
  (@acts_preserve before after (fun _ => True) (fun _ _ _ => trivial) h hg trivial).1

/-- An action is a run of acts. -/
def Performs (ids : List EntityId) (action : Build Unit) : Prop :=
  ∀ {draft : Draft}, draft.Grounded → draft.Knows ids → Acts draft (action.run draft).2

theorem performs_forM {items : List α} {f : α → Build Unit}
    (h : ∀ item ∈ items, Performs ids (f item)) : Performs ids (items.forM f) := by
  induction items with
  | nil =>
    intro draft _ _
    exact .refl
  | cons item rest ih =>
    intro draft hg hk
    have hi := h item List.mem_cons_self hg hk
    have hr := ih (fun other ho => h other (List.mem_cons_of_mem _ ho)) (acts_grounded hi hg)
      (hk.grows (acts_grows hi hg))
    exact hi.trans hr

/-- The colour over which an entity is read. -/
def readColor (draft : Draft) (other : EntityId) : Color :=
  if draft.blueprint.isRelay other then .red else .green

theorem run_readFeed_entity {id other : EntityId} :
    (readFeed frame id (.entity other)).run draft =
      (route frame ⟨id, .input⟩ ⟨other, .output⟩ (readColor draft other)).run draft := by
  rw [readFeed, StateT.run_bind, StateT.run_get]
  exact pure_bind _ _

/-- A gate has its readers from before, and the new one. -/
theorem reader_of_request {requests : Array (List EntityId)} {slot id reader : Nat}
    {readers : List EntityId} (hm : readers ∈ (requests.modify slot (· ++ [id])).toList)
    (hr : reader ∈ readers) : reader = id ∨ ∃ old ∈ requests.toList, reader ∈ old := by
  rw [Array.toList_modify] at hm
  obtain ⟨i, hi, he⟩ := List.getElem_of_mem hm
  have hold := List.getElem_mem (l := requests.toList) (by simpa using hi)
  rw [List.getElem_modify] at he
  split at he
  · rw [← he] at hr
    rcases List.mem_append.mp hr with hr | hr
    · exact .inr ⟨_, hold, hr⟩
    · exact .inl (List.mem_singleton.mp hr)
  · rw [← he] at hr
    exact .inr ⟨_, hold, hr⟩

theorem grounded_request {id slot : Nat} (hg : draft.Grounded) (hk : id < draft.blueprint.size) :
    ((request slot id).run draft).2.Grounded := by
  refine ⟨hg.indexed, hg.poles, ?_⟩
  intro readers hm reader hr
  rcases reader_of_request hm hr with rfl | ⟨old, ho, hr⟩
  · exact hk
  · exact hg.requests old ho reader hr

/-- A feed is an entity, to which a route is drawn, or a slot, of which a wire is asked for. -/
theorem performs_readFeed {id : EntityId} {feed : Feed} (hf : frame.Upright) :
    Performs (id :: Feed.entities [feed]) (readFeed frame id feed) := by
  intro draft hg hk
  have hi := hk id List.mem_cons_self
  cases feed with
  | entity other =>
    rw [run_readFeed_entity]
    have ho : other < draft.blueprint.size := hk other (by simp [Feed.entities])
    exact .single (.route (readColor draft other) hf hi ho)
  | request slot => exact .single (.note rfl rfl (grounded_request hg hi))

theorem mem_entities {feed : Feed} {id : EntityId} (hf : feed ∈ feeds)
    (hid : id ∈ Feed.entities [feed]) : id ∈ Feed.entities feeds := by
  obtain ⟨other, ho, he⟩ := List.mem_filterMap.mp hid
  rw [List.mem_singleton.mp ho] at he
  exact List.mem_filterMap.mpr ⟨feed, hf, he⟩

/-- Placing a combinator is a run of acts, and the combinator exists afterwards. -/
theorem place_spec (hf : frame.Upright) (hg : draft.Grounded)
    (hk : draft.Knows (Feed.entities feeds)) :
    Acts draft ((place frame condition feeds).run draft).2 ∧
      ((place frame condition feeds).run draft).2.Knows
        [((place frame condition feeds).run draft).1] := by
  obtain ⟨hid, hnew⟩ := @bare_new draft frame condition feeds
  have hact := Act.stand draft frame condition feeds
  rw [run_place]
  generalize (bare frame condition feeds).run draft = made at hid hact hnew ⊢
  obtain ⟨id, made⟩ := made
  dsimp only at hid hact hnew ⊢
  rw [← hid] at hnew
  have hgm := act_grounded hact hg
  have hfeeds : Acts made ((feeds.forM (readFeed frame id)).run made).2 := by
    apply @performs_forM _ (id :: Feed.entities feeds) feeds
    · intro feed hm draft hg hk
      refine performs_readFeed hf hg (hk.mono fun other ho => ?_)
      rcases List.mem_cons.mp ho with rfl | ho
      · exact List.mem_cons_self
      · exact List.mem_cons_of_mem _ (mem_entities hm ho)
    · exact hgm
    · exact hnew.append (hk.grows (act_grows hact hg))
  have hgf := acts_grounded hfeeds hgm
  have hkf := hnew.grows (acts_grows hfeeds hgm)
  generalize ((feeds.forM (readFeed frame id)).run made).2 = fed at hfeeds hgf hkf ⊢
  exact ⟨.tail (.head hact hfeeds) (.note rfl rfl ⟨hgf.indexed, hgf.poles, hgf.requests⟩), hkf⟩

end CircuitScript.Layout
