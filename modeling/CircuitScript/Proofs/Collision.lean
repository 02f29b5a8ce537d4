import CircuitScript.Proofs.ScriptShape
import CircuitScript.Proofs.Settlement
/-!
Layouts without collisions. The constructs of a program lie below each other, and each is laid out
on free tiles. So nothing is ever put on a tile that is taken, whatever program was read.
-/
namespace CircuitScript

open Layout (Setting)

variable {P : String → Prop} {context : Context} {node test : Node} {body : List Node}
  {setting : Setting} {out : String}

/-- A construct of a program can be laid out in a row, or is a chain of what can. -/
def Node.StandsAlone : Node → Prop
  | .chain _ body => AllowedBody body .row
  | node => node.Allowed .row

theorem Node.Allowed.standsAlone (h : node.Allowed .row) : node.StandsAlone := by
  cases node with
  | chain => exact absurd h.1 Bool.false_ne_true
  | _ => exact h

theorem allowedBody_of (hi : setting ∈ setting.inner?) (h : ∀ node ∈ body, node.Allowed setting) :
    AllowedBody body setting := by
  induction body with
  | nil => trivial
  | cons node rest ih =>
    exact ⟨.inr ⟨setting, hi, h node List.mem_cons_self⟩,
      ih fun other ho => h other (List.mem_cons_of_mem _ ho)⟩

theorem allowedMembers_of (h : ∀ node ∈ body, node.Allowed setting) :
    AllowedMembers body setting := by
  induction body with
  | nil => trivial
  | cons node rest ih =>
    exact ⟨h node List.mem_cons_self, ih fun other ho => h other (List.mem_cons_of_mem _ ho)⟩

/-- Steps can be laid out anywhere. -/
theorem allowedBody_steps {steps : List Step} : AllowedBody (steps.map .step) setting := by
  induction steps with
  | nil => trivial
  | cons step rest ih => exact ⟨.inl ⟨step, rfl⟩, ih⟩

theorem Side.Shaped.allowed {side : Side} (h : side.Shaped P) (hi : setting ∈ setting.inner?) :
    side.Allowed setting := by
  cases h with
  | value => trivial
  | series => exact ⟨setting, hi, allowedBody_steps⟩

/-- No conditional stands in a condition. -/
theorem Node.IsTest.allowed (h : test.IsTest P out) (hi : setting ∈ setting.inner?) :
    test.Allowed setting := by
  induction h with
  | compare hl _ hr => exact ⟨hl.allowed hi, hr.allowed hi⟩
  | and _ _ _ ih | or _ _ _ ih => exact ⟨setting, hi, allowedMembers_of ih⟩

theorem Node.IsAssignment.allowed (h : node.IsAssignment P) : node.Allowed .row := by
  cases h with
  | replacing =>
    exact ⟨.inl ⟨_, rfl⟩, .inr ⟨.row, rfl, allowedBody_steps⟩, .inl ⟨_, rfl⟩, trivial⟩
  | scaling => exact ⟨.inl ⟨_, rfl⟩, .inr ⟨.row, rfl, .inl ⟨_, rfl⟩, trivial⟩, trivial⟩

/-- Below the top of a program there are no chains. -/
theorem Node.Shaped.allowed (h : node.Shaped P context) (hc : context ≠ .script) :
    node.Allowed .row := by
  induction h with
  | step => trivial
  | assignment _ h => exact h.allowed
  | conditional _ ht _ ih =>
    exact ⟨⟨.column, rfl, ht.allowed rfl⟩, allowedBody_of rfl fun node hm => ih node hm nofun⟩
  | chain => exact absurd rfl hc
  | parallel _ ih | series _ ih => exact allowedBody_of rfl fun node hm => ih node hm nofun

theorem Node.Shaped.standsAlone (h : node.Shaped P .script) : node.StandsAlone := by
  cases h with
  | step hc => cases hc
  | assignment _ h => exact h.allowed.standsAlone
  | conditional ho ht h =>
    exact (Node.Shaped.allowed (@Shaped.conditional P .chain _ _ _ _ _ ho ht h) nofun).standsAlone
  | chain h => exact allowedBody_of rfl fun node hm => (h node hm).allowed nofun

namespace Layout

variable {draft : Draft} {frame : Frame} {color : Color} {grown : Int}

theorem routeAll_keeps {first : Terminal} {others : List EntityId} {side : End}
    (ha : frame.Aligned) (hg : draft.Grounded) (h : Fits frame grown draft)
    (hf : Passed frame grown draft first.entity)
    (ho : ∀ other ∈ others, Passed frame grown draft other) :
    Keeps frame grown draft ((routeAll frame first others side color).run draft).2 := by
  induction others generalizing draft with
  | nil => exact ⟨hg, .refl _, rfl, h⟩
  | cons other rest ih =>
    have hfirst := @route_keeps draft frame color grown first ⟨other, side⟩ ha hg h hf
      (ho other List.mem_cons_self)
    exact hfirst.trans (ih hfirst.grounded hfirst.fits (hf.mono hfirst.extend (Int.le_refl _))
      fun next hn => (ho next (List.mem_cons_of_mem _ hn)).mono hfirst.extend (Int.le_refl _))

theorem at_put {kind : Kind} {tile : Position} :
    ((put kind tile).run draft).2.At ((put kind tile).run draft).1 (· = tile) :=
  ⟨_, Blueprint.entity?_create, rfl⟩

theorem run_chain {scope : Scope} {body : List Node} :
    (lower frame (.chain scope body)).run draft =
      let announced := ((announce frame (.chain scope body)).run draft).2
      let headed := (put .relay (frame.start - frame.direction)).run announced
      let laid := (lowerBody frame (.chained [.entity headed.1]) [] body).run headed.2
      let tailed := (put .relay (frame.spot laid.2.grown)).run laid.2
      ([tailed.1], ((routeAll frame ⟨tailed.1, .input⟩ (laid.1.getLast?.getD [headed.1]) .output
        .red).run tailed.2).2) := by
  rw [lower]
  rfl

/-- The head of a chain stands before its first member. -/
theorem head_fits (hr : frame.IsRow) (h : Fits frame (-1) draft) :
    Fits frame 0 ((put .relay (frame.start - frame.direction)).run draft).2 ∧
    Settled frame 0 ((put .relay (frame.start - frame.direction)).run draft).2
      ((put .relay (frame.start - frame.direction)).run draft).1 := by
  have htile : frame.start - frame.direction = frame.spot (-1) := by
    rw [hr.spot, hr.1]
    show (⟨frame.start.x - 1, frame.start.y - 0⟩ : Position) = _
    rw [Int.sub_zero]
    rfl
  have ha : frame.Aligned := .inl hr
  rw [htile]
  constructor
  · refine fits_relay (h.mono ha (by omega)) (h.free ha (Int.le_refl _) (Int.le_refl _)) (.inl ?_)
    rw [ha.ahead_spot]
    omega
  · refine at_put.imp fun tile ht => ?_
    rw [ht, ha.ahead_spot, ha.aside_spot]
    omega

/-- The tail of a chain stands behind its last member. -/
theorem tail_fits (ha : frame.Aligned) (h : Fits frame grown draft) :
    Fits frame (grown + 1) ((put .relay (frame.spot grown)).run draft).2 ∧
    Passed frame (grown + 1) ((put .relay (frame.spot grown)).run draft).2
      ((put .relay (frame.spot grown)).run draft).1 := by
  constructor
  · refine fits_relay (h.mono ha (by omega)) (h.free ha (Int.le_refl _) (Int.le_refl _)) (.inl ?_)
    rw [ha.ahead_spot]
    omega
  · refine at_put.imp fun tile ht => ?_
    rw [ht, ha.ahead_spot]
    omega

theorem chain_fits {scope : Scope} {body : List Node} (hr : frame.IsRow)
    (hb : AllowedBody body .row) (hg : draft.Grounded) (hz : draft.grown = 0)
    (hs : frame.feeds = []) (h : Fits frame (-1) draft) :
    ∃ grown, Fits frame grown ((lower frame (.chain scope body)).run draft).2 := by
  have ha : frame.Aligned := .inl hr
  rw [run_chain]
  dsimp only
  have hannounced := @fits_announce draft frame (-1) (.chain scope body) h
  have hg' : ((announce frame (.chain scope body)).run draft).2.Grounded :=
    ⟨hg.indexed, hg.poles, hg.requests⟩
  have hz' : ((announce frame (.chain scope body)).run draft).2.grown = 0 := hz
  generalize ((announce frame (.chain scope body)).run draft).2 = announced at hannounced hg' hz' ⊢
  obtain ⟨hfits, hhead⟩ := head_fits hr hannounced
  have hgrounded := act_grounded (.relay announced (frame.start - frame.direction)) hg'
  have hgrown : ((put .relay (frame.start - frame.direction)).run announced).2.grown = 0 := hz'
  generalize (put .relay (frame.start - frame.direction)).run announced = headed
    at hfits hhead hgrounded hgrown ⊢
  rw [← hgrown] at hfits hhead
  have hbody := (plan_lowerBody frame .row (.chained [.entity headed.1]) [] body hb).settles hr
  obtain ⟨hlaid, hends⟩ := hbody.run hgrounded hfits
    (by simpa [bodyReads, Flow.feeds, Feed.entities, hs] using hhead) (by simp)
  generalize (lowerBody frame (.chained [.entity headed.1]) [] body).run headed.2 = laid
    at hlaid hends ⊢
  obtain ⟨htail, hpassed⟩ := tail_fits ha hlaid.fits
  have hextend : laid.2.blueprint.Extends
      ((put .relay (frame.spot laid.2.grown)).run laid.2).2.blueprint :=
    Blueprint.extends_push Blueprint.entities_create rfl
  have hgtail := act_grounded (.relay laid.2 (frame.spot laid.2.grown)) hlaid.grounded
  generalize (put .relay (frame.spot laid.2.grown)).run laid.2 = tailed
    at htail hpassed hextend hgtail ⊢
  refine ⟨laid.2.grown + 1, (routeAll_keeps ha hgtail htail hpassed fun id hid => ?_).fits⟩
  cases hlast : laid.1.getLast? with
  | none =>
    rw [hlast] at hid
    rw [List.mem_singleton.mp hid]
    exact (hhead.passed.mono hlaid.extend hlaid.advance).mono hextend (by omega)
  | some last =>
    rw [hlast] at hid
    have hm : id ∈ laid.1.flatten := List.mem_flatten.mpr ⟨last, List.mem_of_getLast? hlast, hid⟩
    exact (hends id hm).passed.mono hextend (by omega)

/-- The next construct starts below every tile that is covered, with room for its lanes. -/
theorem lanes_startBelow {blueprint : Blueprint} {node : Node} {tile : Position}
    (ht : tile ∈ blueprint.tiles) : tile.y + node.depth + 2 < (startBelow blueprint node).y := by
  unfold startBelow Blueprint.bounds?
  cases htiles : blueprint.tiles with
  | nil =>
    rw [htiles] at ht
    cases ht
  | cons first rest =>
    have hy : ∀ a : Position, (rest.foldl (fun a tile =>
        (⟨max a.x tile.x, max a.y tile.y⟩ : Position)) a).y =
        rest.foldl (fun reach tile => max reach tile.y) a.y := fun a =>
      (List.foldl_hom Position.y fun _ _ => rfl).symm
    have hmax := @le_foldl_max Position Position.y rest first.y
    have hle : tile.y ≤ rest.foldl (fun reach tile => max reach tile.y) first.y := by
      rw [htiles] at ht
      rcases List.mem_cons.mp ht with rfl | ht
      · exact hmax.1
      · exact hmax.2 tile ht
    dsimp only
    rw [Position.add_y, hy]
    dsimp only
    omega

theorem lt_startBelow {blueprint : Blueprint} {node : Node} {tile : Position}
    (ht : tile ∈ blueprint.tiles) : tile.y < (startBelow blueprint node).y := by
  have hlanes := @lanes_startBelow blueprint node tile ht
  omega

/-- All that was put down is found where it stands, and no gate is open. -/
structure Orderly (draft : Draft) : Prop where
  grounded : draft.Grounded
  tidy : draft.blueprint.Tidy
  quiet : ∀ event ∈ draft.events, ∀ tile a b, event ≠ .overlap tile a b
  closed : draft.requests.size = 0

theorem orderly_lower {node : Node} (h : Orderly draft) (hn : node.StandsAlone) :
    Orderly ((lower (.outermost (startBelow draft.blueprint node)) node).run
      { draft with grown := 0, poles := [] }).2 := by
  have hg : Draft.Grounded { draft with grown := 0, poles := [] } :=
    ⟨h.grounded.indexed, by simp, h.grounded.requests⟩
  have hrow : (Frame.outermost (startBelow draft.blueprint node)).IsRow := ⟨rfl, rfl⟩
  have hstart : ∀ grown, Fits (.outermost (startBelow draft.blueprint node)) grown
      { draft with grown := 0, poles := [] } := by
    intro grown
    refine ⟨h.tidy, h.quiet, fun tile id hfind => .inr ?_, fun readers hm => ?_⟩
    · obtain ⟨entity, he, ht⟩ := (h.tidy tile id).mp hfind
      rw [hrow.aside, hrow.aside]
      refine lt_startBelow (List.mem_flatMap.mpr ⟨entity, ?_, ht⟩)
      exact Array.mem_toList_iff.mpr (Array.mem_of_getElem? he)
    -- Between constructs no gate is open, so no reader can stand too far to the right.
    · have hempty : draft.requests = #[] := Array.eq_empty_of_size_eq_zero h.closed
      rw [show ({ draft with grown := 0, poles := [] } : Draft).requests = #[] from hempty] at hm
      cases hm
  have hplan := plan_lower (.outermost (startBelow draft.blueprint node)) .anywhere node
    node.allowed_anywhere
  have hknows : Draft.Knows { draft with grown := 0, poles := [] }
      (Feed.entities (Frame.outermost (startBelow draft.blueprint node)).feeds) := by
    intro id hid
    cases hid
  have hgrounded := acts_grounded ((hplan.builds rfl).run hg hknows).1 hg
  obtain ⟨inventory, hleaves, -⟩ := (hplan.yields rfl).run hg h.tidy.sound hknows
  have hclosed := hleaves.requests_size.trans h.closed
  obtain ⟨grown, hfits⟩ : ∃ grown, Fits (.outermost (startBelow draft.blueprint node)) grown
      ((lower (.outermost (startBelow draft.blueprint node)) node).run
        { draft with grown := 0, poles := [] }).2 := by
    cases node with
    | chain scope body => exact chain_fits hrow hn hg rfl rfl (hstart _)
    | _ =>
      have hsettles := ((plan_lower _ .row _ hn).settles hrow).run hg (hstart _)
        (by simp [Frame.outermost, Feed.entities]) (by simp)
      exact ⟨_, hsettles.1.fits⟩
  exact ⟨hgrounded, hfits.tidy, hfits.quiet, hclosed⟩

theorem orderly_lowerAll {body : List Node} (h : Orderly draft)
    (hb : ∀ node ∈ body, node.StandsAlone) : Orderly ((lowerAll body).run draft).2 := by
  induction body generalizing draft with
  | nil => exact h
  | cons node rest ih =>
    rw [run_lowerAll_cons]
    exact ih (orderly_lower h (hb node List.mem_cons_self)) fun other ho =>
      hb other (List.mem_cons_of_mem _ ho)

theorem orderly_empty : Orderly .empty :=
  ⟨grounded_empty, Blueprint.tidy_empty, by simp [Draft.empty], rfl⟩

theorem orderly_draft {source : String} {script : Script} (h : Script.parse source = .ok script) :
    Orderly script.draft.2 :=
  orderly_lowerAll orderly_empty fun node hm =>
    (Script.shaped_of_parse nameRule_true h node hm).standsAlone

/-- No program that is read collides with itself: nothing is reported while it is laid out, no two
entities share a tile, and on a tile just the entity that covers it is found. -/
theorem lower_collision_free {source : String} {script : Script}
    (h : Script.parse source = .ok script) :
    (∀ tile id other, Event.overlap tile id other ∉ script.lower.events) ∧
    (∀ id other entity entity', id ≠ other → script.lower.blueprint.entity? id = some entity →
      script.lower.blueprint.entity? other = some entity' →
        entity.tiles.Disjoint entity'.tiles) ∧
    ∀ tile id, script.lower.blueprint.find? tile = some id ↔
      ∃ entity, script.lower.blueprint.entity? id = some entity ∧ tile ∈ entity.tiles := by
  have horderly := orderly_draft h
  have htidy : script.lower.blueprint.Tidy := horderly.tidy
  refine ⟨fun tile id other hm => ?_, fun id other entity entity' hne he ho tile ht ht' => ?_, htidy⟩
  · exact horderly.quiet _ (List.mem_reverse.mp hm) tile id other rfl
  · exact hne (htidy.disjoint he ho ht ht')

/-- A loop in a condition, above a chain. -/
def nestedSource : String :=
  "if a \x7b while c < d \x7b x = 1 \x7d \x7d chain \x7b x = 2 \x7d"

theorem nestedSource_size : ∃ script, Script.parse nestedSource = .ok script ∧
    script.lower.blueprint.size = 23 := by
  refine Script.exists_parse ?_
  decide +kernel

theorem lower_collision_free_nested :
    ∃ script, Script.parse nestedSource = .ok script ∧ script.lower.blueprint.size = 23 ∧
      (∀ tile id other, Event.overlap tile id other ∉ script.lower.events) ∧
      (∀ id other entity entity', id ≠ other → script.lower.blueprint.entity? id = some entity →
        script.lower.blueprint.entity? other = some entity' →
          entity.tiles.Disjoint entity'.tiles) ∧
      ∀ tile id, script.lower.blueprint.find? tile = some id ↔
        ∃ entity, script.lower.blueprint.entity? id = some entity ∧ tile ∈ entity.tiles := by
  obtain ⟨script, hparse, hsize⟩ := nestedSource_size
  exact ⟨script, hparse, hsize, lower_collision_free hparse⟩

end Layout

end CircuitScript
