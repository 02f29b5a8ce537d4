import CircuitScript.Proofs.CompileOutcome
/-!
What comes out of a program. Its combinators are its operations, each once and in the order of the
program, with any number of relays among them, and whatever one of them reads feeds it.
-/
namespace CircuitScript.Layout

/-- Relays drop out, and all else keeps its payload. -/
theorem map_condition_of_bears {entities : List Entity} {items : List (Option Condition)}
    (h : List.Forall₂ Entity.Bears entities items) :
    (entities.filter (·.kind ≠ .relay)).map (·.condition) =
      (items.filterMap fun item => item).map some := by
  induction h with
  | nil => rfl
  | @cons entity item _ _ hb _ ih =>
    cases item with
    | none =>
      rw [List.filter_cons_of_neg (by simp [hb.1]), ih]
      rfl
    | some condition =>
      have hkind : entity.kind ≠ .relay := by
        rw [hb.1]
        cases condition <;> simp [Condition.kind]
      rw [List.filter_cons_of_pos (by simp [hkind]), List.map_cons, ih, hb.2]
      rfl

/-- The entities are numbered in the order in which they are listed. -/
theorem map_id_draft (script : Script) :
    script.draft.2.blueprint.entities.toList.map (·.id) = List.range script.draft.2.blueprint.size := by
  refine List.ext_getElem? fun i => ?_
  rw [List.getElem?_map, Array.getElem?_toList]
  by_cases hi : i < script.draft.2.blueprint.size
  · have hentity := Array.getElem?_eq_getElem hi
    rw [hentity, List.getElem?_range hi, Option.map_some]
    exact congrArg some ((sturdy_draft script).coherent.id hentity)
  · rw [Array.getElem?_eq_none (Nat.le_of_not_lt hi),
      List.getElem?_eq_none (by rw [List.length_range]; omega)]
    rfl

/-- Every program comes out as its operations. Entities are numbered in order; those that are no
relays have the payloads of the program, each once and in its order, and are of the kind that their
payload needs; relays have none. The outputs are the ends of the constructs at the top. The inventory
gives the number of every entity, the tail of every chain and the way out of every gate among them,
and the same ends are the ones that carry the results of the constructs. -/
theorem lower_emits_payloads (script : Script) :
    script.lower.blueprint.entities.toList.map (·.id) = List.range script.lower.blueprint.size ∧
    (script.lower.blueprint.entities.toList.filter (·.kind ≠ .relay)).map (·.condition) =
      (bodyPayloads script.body).map some ∧
    (∀ entity ∈ script.lower.blueprint.entities, ∃ item, entity.Bears item) ∧
    ∃ inventory,
      List.Forall₂ Entity.Bears script.lower.blueprint.entities.toList inventory.items ∧
      RealizesMembers script.lower.blueprint 0 [] script.body 0 inventory script.lower.outputs := by
  obtain ⟨inventory, hl, hr⟩ := draft_realizes script
  obtain ⟨hb, -⟩ := leaves_empty hl
  refine ⟨map_id_draft script, ?_, fun entity he => ?_, inventory, hb, hr⟩
  · exact (map_condition_of_bears hb).trans (congrArg _ hr.carries.items)
  · obtain ⟨item, -, hbears⟩ := exists_bears hb entity (Array.mem_toList_iff.mpr he)
    exact ⟨item, hbears⟩

theorem mem_flatten_take {ends : List (List EntityId)} {i j : Nat} {prior : EntityId} (h : i < j)
    (hp : prior ∈ ends[i]?.getD []) : prior ∈ (ends.take j).flatten := by
  cases hi : ends[i]? with
  | none => simp [hi] at hp
  | some member =>
    rw [hi] at hp
    refine List.mem_flatten.mpr ⟨member, List.mem_of_getElem? (i := i) ?_, hp⟩
    rw [List.getElem?_take_of_lt h, hi]

/-- Whatever a combinator was placed to read feeds it. The first part says for every construct what
its combinators were placed to read, and the second that these are all the combinators there are.
In every series, also on a side of a comparison, each step reads all members before it. -/
theorem lower_dataflow_complete (script : Script) :
    (∃ inventory, inventory.placed = script.draft.2.placements.reverse ∧
      RealizesMembers script.lower.blueprint 0 [] script.body 0 inventory script.lower.outputs) ∧
    script.lower.blueprint.combinators = script.draft.2.placements.reverse.map (·.id) ∧
    (∀ placement ∈ script.draft.2.placements, ∀ id ∈ Feed.entities placement.feeds,
      script.lower.blueprint.Feeds id placement.id) ∧
    ∀ {slots first : Nat} {feeds : List Feed} {body : List Node} {inventory : Inventory}
      {ends : List (List EntityId)},
      RealizesBody script.lower.blueprint slots feeds (.series feeds) [] body first inventory ends →
      ∀ {i j : Nat} {step : Step} {prior : EntityId}, i < j → body[j]? = some (.step step) →
        prior ∈ ends[i]?.getD [] → ∃ id, ends[j]? = some [id] ∧
          script.lower.blueprint.Linked (busColor script.lower.blueprint feeds)
            ⟨prior, .output⟩ ⟨id, .input⟩ := by
  obtain ⟨inventory, hl, hr⟩ := draft_realizes script
  obtain ⟨-, hplaced, hcombinators, -⟩ := leaves_empty hl
  refine ⟨⟨inventory, hplaced.symm, hr⟩, ?_, ?_, ?_⟩
  · rw [hplaced]
    exact hcombinators
  · intro placement hp
    refine hr.carries.fed placement ?_
    rw [← hplaced]
    exact List.mem_reverse.mpr hp
  · intro slots first feeds body inventory ends hb i j step prior hij hj hprior
    obtain ⟨id, hid, hl⟩ := hb.bus hj
    exact ⟨id, hid, hl prior (mem_flatten_take hij hprior)⟩

end CircuitScript.Layout
