import CircuitScript.Proofs.Collision
import CircuitScript.Proofs.RelayTiles
/-!
Which terminals a layout joins. Every wire belongs to a route, and a route joins its two ends and
the relays it goes over. A relay that stands where a route needs one is used again, whatever it was
set up for, so networks are joined by what was asked for and by tiles that routes share.
-/
namespace CircuitScript.Layout

variable {draft before after : Draft} {frame : Frame} {color : Color} {a b x : Terminal}
  {route other : Route} {relays : List EntityId}

/-- Two terminals are the ends of a route of some colour. -/
def Asked (draft : Draft) (color : Color) (a b : Terminal) : Prop :=
  ∃ route ∈ draft.routes, route.color = color ∧
    a = draft.blueprint.vertex route.first ∧ b = draft.blueprint.vertex route.second

/-- A route of some colour that is asked for at one terminal goes over a relay. -/
def Crosses (draft : Draft) (color : Color) (a b : Terminal) : Prop :=
  ∃ route ∈ draft.routes, route.color = color ∧
    a = draft.blueprint.vertex route.first ∧ b ∈ stops route.relays

/-- The terminals are joined by what was asked for. -/
def JoinedAsAsked (draft : Draft) (color : Color) : Terminal → Terminal → Prop :=
  Relation.EqvGen (Asked draft color)

/-- The terminals are joined by what was asked for, when the relays on the way count as well. -/
def JoinedOverRelays (draft : Draft) (color : Color) : Terminal → Terminal → Prop :=
  Relation.EqvGen fun a b => Asked draft color a b ∨ Crosses draft color a b

/-- The terminal belongs to a combinator, or some route of the colour ends at it. -/
def Proper (draft : Draft) (color : Color) (a : Terminal) : Prop :=
  draft.blueprint.isRelay a.entity = false ∨ ∃ b, Asked draft color a b ∨ Asked draft color b a

/-- Routes of one colour that meet at a relay on the way of one of them are joined without it. -/
def Separated (draft : Draft) (color : Color) : Prop :=
  ∀ route ∈ draft.routes, ∀ other ∈ draft.routes, route.color = color → other.color = color →
    ∀ x ∈ stops route.relays, x ∈ other.vertices draft.blueprint →
      JoinedAsAsked draft color (draft.blueprint.vertex route.first)
        (draft.blueprint.vertex other.first)

/-- Routes of one colour that need a relay on one tile are joined without it, also where one of them
ends at the relay. -/
def TilesApart (draft : Draft) (color : Color) : Prop :=
  ∀ route ∈ draft.routes, ∀ other ∈ draft.routes, route.color = color → other.color = color →
    ∀ tiles others, route.Passes draft tiles → other.Passes draft others →
      ∀ tile ∈ tiles, tile ∈ others ∨ StandsOn draft other.first.entity tile ∨
        StandsOn draft other.second.entity tile →
      JoinedAsAsked draft color (draft.blueprint.vertex route.first)
        (draft.blueprint.vertex other.first)

/-- The wires of a draft are those of its routes. -/
structure Faithful (draft : Draft) : Prop where
  known : ∀ route ∈ draft.routes, route.first.entity < draft.blueprint.size ∧
    route.second.entity < draft.blueprint.size
  relays : ∀ route ∈ draft.routes, ∀ relay ∈ route.relays, draft.blueprint.isRelay relay = true
  drawn : ∀ wire ∈ draft.blueprint.wires, ∃ route ∈ draft.routes, route.color = wire.color ∧
    wire.a ∈ route.vertices draft.blueprint ∧ wire.b ∈ route.vertices draft.blueprint
  joined : ∀ route ∈ draft.routes, ∀ a ∈ route.vertices draft.blueprint,
    ∀ b ∈ route.vertices draft.blueprint, draft.blueprint.Joined route.color a b

theorem vertices_grows (hg : before.blueprint.Grows after.blueprint)
    (ha : route.first.entity < before.blueprint.size)
    (hb : route.second.entity < before.blueprint.size) :
    route.vertices after.blueprint = route.vertices before.blueprint := by
  rw [Route.vertices, Route.vertices, hg.vertex ha, hg.vertex hb]

/-- Entities may be added without harm. -/
theorem faithful_of_grows (h : Faithful before) (hg : before.blueprint.Grows after.blueprint)
    (hw : after.blueprint.wires = before.blueprint.wires) (hr : after.routes = before.routes) :
    Faithful after where
  known := by
    intro route hm
    rw [hr] at hm
    exact ⟨hg.lt (h.known route hm).1, hg.lt (h.known route hm).2⟩
  relays := by
    intro route hm relay hrelay
    rw [hr] at hm
    exact hg.isRelay_of_isRelay (h.relays route hm relay hrelay)
  drawn := by
    intro wire hwire
    rw [hw] at hwire
    obtain ⟨route, hm, hc, ha, hb⟩ := h.drawn wire hwire
    refine ⟨route, hr ▸ hm, hc, ?_⟩
    rw [vertices_grows hg (h.known route hm).1 (h.known route hm).2]
    exact ⟨ha, hb⟩
  joined := by
    intro route hm a ha b hb
    rw [hr] at hm
    rw [vertices_grows hg (h.known route hm).1 (h.known route hm).2] at ha hb
    exact (h.joined route hm a ha b hb).mono hg

/-- A route adds its own wires and nothing else. -/
theorem faithful_route (h : Faithful before)
    (hl : Lays color (Route.vertices ⟨frame, a, b, color, relays⟩ before.blueprint) before after)
    (hrel : ∀ relay ∈ relays, after.blueprint.isRelay relay = true)
    (ha : a.entity < before.blueprint.size) (hb : b.entity < before.blueprint.size) :
    Faithful { after with routes := ⟨frame, a, b, color, relays⟩ :: before.routes } := by
  have hv : ∀ route ∈ before.routes,
      route.vertices after.blueprint = route.vertices before.blueprint := fun route hm =>
    vertices_grows hl.grows (h.known route hm).1 (h.known route hm).2
  have hnew : Route.vertices ⟨frame, a, b, color, relays⟩ after.blueprint =
      Route.vertices ⟨frame, a, b, color, relays⟩ before.blueprint := vertices_grows hl.grows ha hb
  refine ⟨?_, ?_, ?_, ?_⟩
  · intro route hm
    rcases List.mem_cons.mp hm with rfl | hm
    · exact ⟨hl.grows.lt ha, hl.grows.lt hb⟩
    · exact ⟨hl.grows.lt (h.known route hm).1, hl.grows.lt (h.known route hm).2⟩
  · intro route hm relay hr
    rcases List.mem_cons.mp hm with rfl | hm
    · exact hrel relay hr
    · exact hl.grows.isRelay_of_isRelay (h.relays route hm relay hr)
  · intro wire hw
    rcases hl.added wire hw with hw | ⟨hwa, hwb, hc⟩
    · obtain ⟨route, hm, hc, hwa, hwb⟩ := h.drawn wire hw
      refine ⟨route, List.mem_cons_of_mem _ hm, hc, ?_⟩
      dsimp only
      rw [hv route hm]
      exact ⟨hwa, hwb⟩
    · refine ⟨_, List.mem_cons_self, hc.symm, ?_⟩
      dsimp only
      rw [hnew]
      exact ⟨hwa, hwb⟩
  · intro route hm x hx y hy
    dsimp only at hx hy ⊢
    rcases List.mem_cons.mp hm with rfl | hm
    · rw [hnew] at hx hy
      exact hl.joined x hx y hy
    · rw [hv route hm] at hx hy
      exact (h.joined route hm x hx y hy).mono hl.grows

theorem faithful_act (ha : Act before after) (hg : before.Grounded) (h : Faithful before) :
    Faithful after := by
  cases ha with
  | relay tile => exact faithful_of_grows h Blueprint.grows_create rfl rfl
  | stand frame condition feeds => exact faithful_of_grows h grows_bare wires_bare rfl
  | route color hf ha hb =>
    obtain ⟨relays, final, hr, hl, hrel⟩ := route_spec hg hf ha hb color
    rw [hr]
    exact faithful_route h hl hrel ha hb
  | note hb hr hg' => exact faithful_of_grows h (hb ▸ .refl _) (by rw [hb]) hr

theorem faithful_draft (script : Script) : Faithful script.draft.2 := by
  refine draft_induction ?_ faithful_act script
  exact ⟨fun _ hm => absurd hm List.not_mem_nil, fun _ hm => absurd hm List.not_mem_nil,
    fun _ hm => absurd hm List.not_mem_nil, fun _ hm => absurd hm List.not_mem_nil⟩

/-- Within one route everything is joined, relays counted. -/
theorem joinedOverRelays_first (hm : route ∈ draft.routes)
    (hx : x ∈ route.vertices draft.blueprint) :
    JoinedOverRelays draft route.color (draft.blueprint.vertex route.first) x := by
  rcases List.mem_cons.mp hx with rfl | hx
  · exact .refl _
  · rcases List.mem_cons.mp hx with rfl | hx
    · exact .rel _ _ (.inl ⟨route, hm, rfl, rfl, rfl⟩)
    · exact .rel _ _ (.inr ⟨route, hm, rfl, rfl, hx⟩)

theorem mem_vertices_first : draft.blueprint.vertex route.first ∈ route.vertices draft.blueprint :=
  List.mem_cons_self

theorem mem_vertices_second :
    draft.blueprint.vertex route.second ∈ route.vertices draft.blueprint :=
  List.mem_cons_of_mem _ List.mem_cons_self

theorem mem_vertices_of_stop (hx : x ∈ stops route.relays) :
    x ∈ route.vertices draft.blueprint :=
  List.mem_cons_of_mem _ (List.mem_cons_of_mem _ hx)

theorem joined_of_asked (h : Faithful draft) (ha : Asked draft color a b) :
    draft.blueprint.Joined color a b := by
  obtain ⟨route, hm, rfl, rfl, rfl⟩ := ha
  exact h.joined route hm _ mem_vertices_first _ mem_vertices_second

/-- Terminals are on one network exactly when routes lead from one to the other, relays counted. -/
theorem joined_iff (h : Faithful draft) :
    draft.blueprint.Joined color a b ↔ JoinedOverRelays draft color a b := by
  constructor
  · apply Blueprint.of_eqvGen (Relation.EqvGen.is_equivalence _)
    intro x y hw
    obtain ⟨route, hm, hc, hx, hy⟩ := h.drawn _ hw
    have hc : route.color = color := hc
    subst hc
    exact .trans _ _ _ (.symm _ _ (joinedOverRelays_first hm hx)) (joinedOverRelays_first hm hy)
  · apply Blueprint.of_eqvGen (Relation.EqvGen.is_equivalence _)
    rintro x y (hxy | ⟨route, hm, rfl, rfl, hy⟩)
    · exact joined_of_asked h hxy
    · exact h.joined route hm _ mem_vertices_first _ (mem_vertices_of_stop hy)

/-- Some routes through the two terminals are joined by what was asked for. -/
def Related (draft : Draft) (color : Color) (a b : Terminal) : Prop :=
  a = b ∨ ∃ route ∈ draft.routes, ∃ other ∈ draft.routes,
    route.color = color ∧ other.color = color ∧
    a ∈ route.vertices draft.blueprint ∧ b ∈ other.vertices draft.blueprint ∧
    JoinedAsAsked draft color (draft.blueprint.vertex route.first)
      (draft.blueprint.vertex other.first)

theorem joinedAsAsked_end (hm : route ∈ draft.routes) (hc : route.color = color)
    (hx : x = draft.blueprint.vertex route.first ∨ x = draft.blueprint.vertex route.second) :
    JoinedAsAsked draft color (draft.blueprint.vertex route.first) x := by
  rcases hx with rfl | rfl
  · exact .refl _
  · exact .rel _ _ ⟨route, hm, hc, rfl, rfl⟩

/-- A vertex of a route is one of its ends, or a relay on the way. -/
theorem end_or_stop (hx : x ∈ route.vertices draft.blueprint) :
    (x = draft.blueprint.vertex route.first ∨ x = draft.blueprint.vertex route.second) ∨
      x ∈ stops route.relays := by
  rcases List.mem_cons.mp hx with hx | hx
  · exact .inl (.inl hx)
  · rcases List.mem_cons.mp hx with hx | hx
    · exact .inl (.inr hx)
    · exact .inr hx

/-- Separated routes that meet anywhere are joined by what was asked for. -/
theorem joinedAsAsked_of_meet (hs : Separated draft color) (hm : route ∈ draft.routes)
    (hm' : other ∈ draft.routes) (hc : route.color = color) (hc' : other.color = color)
    (hx : x ∈ route.vertices draft.blueprint) (hx' : x ∈ other.vertices draft.blueprint) :
    JoinedAsAsked draft color (draft.blueprint.vertex route.first)
      (draft.blueprint.vertex other.first) := by
  rcases end_or_stop hx with he | he
  · rcases end_or_stop hx' with he' | he'
    · exact .trans _ _ _ (joinedAsAsked_end hm hc he) (.symm _ _ (joinedAsAsked_end hm' hc' he'))
    · exact .symm _ _ (hs other hm' route hm hc' hc x he' hx)
  · exact hs route hm other hm' hc hc' x he hx'

theorem related_equivalence (hs : Separated draft color) : Equivalence (Related draft color) where
  refl := fun a => .inl rfl
  symm := by
    rintro a b (rfl | ⟨route, hm, other, hm', hc, hc', ha, hb, hj⟩)
    · exact .inl rfl
    · exact .inr ⟨other, hm', route, hm, hc', hc, hb, ha, .symm _ _ hj⟩
  trans := by
    rintro a b c (rfl | ⟨route, hm, other, hm', hc, hc', ha, hb, hj⟩) hbc
    · exact hbc
    · rcases hbc with rfl | ⟨next, hn, last, hl, hcn, hcl, hbn, hcl', hj'⟩
      · exact .inr ⟨route, hm, other, hm', hc, hc', ha, hb, hj⟩
      · have hmeet := joinedAsAsked_of_meet hs hm' hn hc' hcn hb hbn
        exact .inr ⟨route, hm, last, hl, hc, hcl, ha, hcl',
          .trans _ _ _ hj (.trans _ _ _ hmeet hj')⟩

theorem related_of_joined (h : Faithful draft) (hs : Separated draft color)
    (hj : draft.blueprint.Joined color a b) : Related draft color a b := by
  refine Blueprint.of_eqvGen (related_equivalence hs) ?_ hj
  intro x y hw
  obtain ⟨route, hm, hc, hx, hy⟩ := h.drawn _ hw
  exact .inr ⟨route, hm, route, hm, hc, hc, hx, hy, .refl _⟩

/-- A proper terminal on a route is joined to the route's end by what was asked for. -/
theorem joinedAsAsked_proper (h : Faithful draft) (hs : Separated draft color)
    (hm : route ∈ draft.routes) (hc : route.color = color)
    (hx : x ∈ route.vertices draft.blueprint) (hp : Proper draft color x) :
    JoinedAsAsked draft color (draft.blueprint.vertex route.first) x := by
  rcases end_or_stop hx with he | he
  · exact joinedAsAsked_end hm hc he
  · rcases hp with hp | ⟨y, ⟨other, hm', hc', rfl, rfl⟩ | ⟨other, hm', hc', rfl, rfl⟩⟩
    · obtain ⟨relay, hr, rfl⟩ := List.mem_map.mp he
      rw [h.relays route hm relay hr] at hp
      cases hp
    · exact hs route hm other hm' hc hc' _ he mem_vertices_first
    · exact .trans _ _ _ (hs route hm other hm' hc hc' _ he mem_vertices_second)
        (joinedAsAsked_end hm' hc' (.inr rfl))

/-- Relays join nothing new exactly when the routes that meet at relays are joined anyway. -/
theorem joined_iff_asked_iff_separated (h : Faithful draft) :
    (∀ a b, Proper draft color a → Proper draft color b →
      (draft.blueprint.Joined color a b ↔ JoinedAsAsked draft color a b)) ↔
    Separated draft color := by
  constructor
  · intro hall route hm other hm' hc hc' x hx hx'
    have hp : ∀ route ∈ draft.routes, route.color = color →
        Proper draft color (draft.blueprint.vertex route.first) := fun route hm hc =>
      .inr ⟨_, .inl ⟨route, hm, hc, rfl, rfl⟩⟩
    refine (hall _ _ (hp route hm hc) (hp other hm' hc')).mp ?_
    subst hc
    have hj := h.joined other hm' x hx' _ mem_vertices_first
    rw [hc'] at hj
    exact .trans _ _ _ (h.joined route hm _ mem_vertices_first x (mem_vertices_of_stop hx)) hj
  · intro hs a b ha hb
    constructor
    · intro hj
      rcases related_of_joined h hs hj with rfl | ⟨route, hm, other, hm', hc, hc', hx, hx', hr⟩
      · exact .refl _
      · exact .trans _ _ _ (.symm _ _ (joinedAsAsked_proper h hs hm hc hx ha))
          (.trans _ _ _ hr (joinedAsAsked_proper h hs hm' hc' hx' hb))
    · exact Blueprint.of_eqvGen (Relation.EqvGen.is_equivalence _) fun x y hxy => joined_of_asked h hxy

/-- A relay has one terminal. -/
theorem vertex_of_isRelay (h : draft.blueprint.isRelay a.entity = true) :
    draft.blueprint.vertex a = ⟨a.entity, .input⟩ := by
  rw [Blueprint.vertex, Blueprint.terminal, h]
  rfl

theorem separated_of_tilesApart (hc : Charts draft) (ht : draft.blueprint.Tidy)
    (h : TilesApart draft color) : Separated draft color := by
  intro route hm other hm' hcolor hcolor' x hx hx'
  obtain ⟨tiles, hpasses, hover⟩ := (hc.routes route hm).passes ht
  obtain ⟨others, hpasses', hover'⟩ := (hc.routes other hm').passes ht
  obtain ⟨relay, hrelay, rfl⟩ := List.mem_map.mp hx
  obtain ⟨-, tile, htile, hstands⟩ := hover.exists_tile hrelay
  refine h route hm other hm' hcolor hcolor' tiles others ((hpasses tiles).mpr rfl)
    ((hpasses' others).mpr rfl) tile htile ?_
  rcases end_or_stop hx' with (he | he) | he
  · have hentity : relay = other.first.entity := congrArg Terminal.entity he
    exact .inr (.inl (hentity ▸ hstands))
  · have hentity : relay = other.second.entity := congrArg Terminal.entity he
    exact .inr (.inr (hentity ▸ hstands))
  · obtain ⟨relay', hrelay', heq⟩ := List.mem_map.mp he
    cases heq
    obtain ⟨-, tile', htile', hstands'⟩ := hover'.exists_tile hrelay'
    exact .inl (hstands.unique hstands' ▸ htile')

theorem tilesApart_of_separated (hc : Charts draft) (ht : draft.blueprint.Tidy)
    (h : Separated draft color) : TilesApart draft color := by
  intro route hm other hm' hcolor hcolor' tiles others hp hp' tile htile hmeet
  obtain ⟨_, hpasses, hover⟩ := (hc.routes route hm).passes ht
  obtain ⟨_, hpasses', hover'⟩ := (hc.routes other hm').passes ht
  cases (hpasses tiles).mp hp
  cases (hpasses' others).mp hp'
  obtain ⟨relay, hrelay, hisRelay, hstands⟩ := hover.exists_relay htile
  refine h route hm other hm' hcolor hcolor' ⟨relay, .input⟩ (List.mem_map_of_mem hrelay) ?_
  -- Only one entity stands on the tile, so it is the relay that the other route meets there.
  rcases hmeet with hmeet | hmeet | hmeet
  · obtain ⟨relay', hrelay', -, hstands'⟩ := hover'.exists_relay hmeet
    rw [hstands.eq ht hstands']
    exact mem_vertices_of_stop (List.mem_map_of_mem hrelay')
  · cases hstands.eq ht hmeet
    rw [← vertex_of_isRelay hisRelay]
    exact mem_vertices_first
  · cases hstands.eq ht hmeet
    rw [← vertex_of_isRelay hisRelay]
    exact mem_vertices_second

theorem lower_blueprint (script : Script) :
    script.lower.blueprint = script.draft.2.blueprint := rfl

/-- Networks of a layout. The relays of each route stand one by one on the tiles that it goes over,
and these are fixed by where its ends and the combinators stand. Terminals are joined exactly by the
routes of their colour when the relays on the way count as terminals too; relays join nothing beyond
what was asked for exactly when routes that need one on the same tile are joined without it. -/
theorem lower_joined_iff {source : String} {script : Script} (h : Script.parse source = .ok script)
    (color : Color) :
    (∀ route ∈ script.draft.2.routes, ∃ tiles,
      (∀ others, route.Passes script.draft.2 others ↔ others = tiles) ∧
      StandOver script.draft.2 route.relays tiles) ∧
    (∀ a b, script.lower.blueprint.Joined color a b ↔
      JoinedOverRelays script.draft.2 color a b) ∧
    ((∀ a b, Proper script.draft.2 color a → Proper script.draft.2 color b →
      (script.lower.blueprint.Joined color a b ↔ JoinedAsAsked script.draft.2 color a b)) ↔
      TilesApart script.draft.2 color) := by
  have hfaithful := faithful_draft script
  have hcharts := charts_draft script
  have htidy := (orderly_draft h).tidy
  refine ⟨fun route hm => (hcharts.routes route hm).passes htidy, fun _ _ => joined_iff hfaithful,
    (joined_iff_asked_iff_separated hfaithful).trans ?_⟩
  exact ⟨tilesApart_of_separated hcharts htidy, separated_of_tilesApart hcharts htidy⟩

/-- A row so long that two of its steps are read over the same relay. -/
def sharedInputSource : String :=
  "chain \x7b parallel \x7b a=1\nb=2\nc=3\nd=4\ne=5\nf=6\ng=7\nh=8\ni=9 \x7d \x7d"

/-- The routes of a colour that meet at a relay start or end at the same terminal. -/
def meetAtEnds (draft : Draft) (color : Color) : Bool :=
  draft.routes.all fun route => draft.routes.all fun other =>
    route.color != color || other.color != color ||
      (stops route.relays).all (fun x => !(other.vertices draft.blueprint).contains x) ||
      draft.blueprint.vertex route.first == draft.blueprint.vertex other.first ||
      draft.blueprint.vertex route.second == draft.blueprint.vertex other.second

theorem separated_of_meetAtEnds (h : meetAtEnds draft color = true) : Separated draft color := by
  intro route hm other hm' hc hc' x hx hx'
  have hends := List.all_eq_true.mp (List.all_eq_true.mp h route hm) other hm'
  simp only [Bool.or_eq_true, bne_iff_ne, List.all_eq_true, Bool.not_eq_true',
    List.contains_eq_mem, decide_eq_false_iff_not, beq_iff_eq] at hends
  rcases hends with (((hne | hne) | hno) | hfirst) | hsecond
  · exact absurd hc hne
  · exact absurd hc' hne
  · exact absurd hx' (hno x hx)
  · rw [hfirst]
    exact .refl _
  · have hj := joinedAsAsked_end hm hc (.inr rfl)
    rw [hsecond] at hj
    exact .trans _ _ _ hj (.symm _ _ (joinedAsAsked_end hm' hc' (.inr rfl)))

theorem sharedInput_layout : ∃ script, Script.parse sharedInputSource = .ok script ∧
    (script.draft.2.routes.map (·.relays)).count [9] = 2 ∧
    meetAtEnds script.draft.2 .red = true := by
  refine Script.exists_parse ?_
  decide +kernel

theorem lower_joined_iff_sharedInput :
    ∃ script, Script.parse sharedInputSource = .ok script ∧
      (script.draft.2.routes.map (·.relays)).count [9] = 2 ∧
      TilesApart script.draft.2 .red ∧
      ∀ a b, Proper script.draft.2 .red a → Proper script.draft.2 .red b →
        (script.lower.blueprint.Joined .red a b ↔ JoinedAsAsked script.draft.2 .red a b) := by
  obtain ⟨script, hparse, hshared, hmeet⟩ := sharedInput_layout
  have hapart := tilesApart_of_separated (charts_draft script) (orderly_draft hparse).tidy
    (separated_of_meetAtEnds hmeet)
  exact ⟨script, hparse, hshared, hapart, (lower_joined_iff hparse .red).2.2.mpr hapart⟩

/-- A chain whose second member is so wide that routes to it and routes from it need a relay on the
same tile. -/
def sharedRelaySource : String :=
  "chain \x7b parallel \x7b a = a \x7d " ++
  "parallel \x7b a = a; a = a; a = a; a = a; a = a; a = a; a = a; a = a; a = a; a = a; a = a; " ++
  "a = a; a = a; a = a; a = a \x7d parallel \x7b a = a \x7d \x7d"

def copyStep : Node := .step ⟨.signal "a", .add, .constant 0, "a"⟩

def sharedRelayScript : Script :=
  ⟨.root, [.chain .root [.parallel .root [copyStep], .parallel .root (List.replicate 15 copyStep),
    .parallel .root [copyStep]]]⟩

theorem parse_sharedRelaySource : Script.parse sharedRelaySource = .ok sharedRelayScript := by
  have hread : ∃ script, Script.parse sharedRelaySource = .ok script ∧ script = sharedRelayScript :=
    Script.exists_parse (by decide +kernel)
  obtain ⟨script, hparse, rfl⟩ := hread
  exact hparse

/-- What the first member is asked to be joined with: the inputs of the second member. -/
def firstNetwork (a : Terminal) : Bool :=
  a = ⟨1, .output⟩ ∨ (a.side = .input ∧ 2 ≤ a.entity ∧ a.entity ≤ 17)

theorem sharedRelayScript_layout :
    sharedRelayScript.draft.2.blueprint.isRelay 1 = false ∧
    sharedRelayScript.draft.2.blueprint.isRelay 19 = false ∧
    (⟨⟨1, .output⟩, ⟨10, .input⟩, .green⟩ : Wire) ∈ sharedRelayScript.draft.2.blueprint.wires ∧
    (⟨⟨10, .input⟩, ⟨18, .input⟩, .green⟩ : Wire) ∈ sharedRelayScript.draft.2.blueprint.wires ∧
    (⟨⟨18, .input⟩, ⟨19, .input⟩, .green⟩ : Wire) ∈ sharedRelayScript.draft.2.blueprint.wires ∧
    (sharedRelayScript.draft.2.routes.all fun route => route.color != .green ||
      firstNetwork (sharedRelayScript.draft.2.blueprint.vertex route.first) ==
        firstNetwork (sharedRelayScript.draft.2.blueprint.vertex route.second)) = true := by
  decide +kernel

/-- The output of the first combinator and the input of the last one are on one green network,
though nothing that was asked for joins them. -/
theorem shared_relay_joins_unasked :
    ∃ script, Script.parse sharedRelaySource = .ok script ∧
      script.lower.blueprint.isRelay 1 = false ∧ script.lower.blueprint.isRelay 19 = false ∧
      script.lower.blueprint.Joined .green ⟨1, .output⟩ ⟨19, .input⟩ ∧
      ¬JoinedAsAsked script.draft.2 .green ⟨1, .output⟩ ⟨19, .input⟩ := by
  refine ⟨sharedRelayScript, parse_sharedRelaySource, ?_⟩
  rw [lower_blueprint]
  have h := sharedRelayScript_layout
  generalize sharedRelayScript.draft.2 = draft at h ⊢
  obtain ⟨hr, hr', hw, hw', hw'', hs⟩ := h
  refine ⟨hr, hr', ?_, ?_⟩
  · exact .trans _ _ _ (.rel _ _ hw) (.trans _ _ _ (.rel _ _ hw') (.rel _ _ hw''))
  · intro hj
    have hstays : ∀ x y, Asked draft .green x y → firstNetwork x = firstNetwork y := by
      rintro x y ⟨route, hm, hc, rfl, rfl⟩
      simpa [hc] using List.all_eq_true.mp hs route hm
    exact absurd (Blueprint.mem_of_eqvGen hstays hj) (by decide)

end CircuitScript.Layout
