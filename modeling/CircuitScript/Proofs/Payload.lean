import CircuitScript.Proofs.LayoutEffects
import CircuitScript.Proofs.RecordReading
import CircuitScript.Proofs.ScriptShape
/-!
The payloads of a layout. Whatever program was read, each of them can be written into a description:
every decider has a signal first, and no name has a dash.
-/
namespace CircuitScript

variable {side : Side} {test node : Node} {out : String} {condition : Condition}
  {context : Context} {script : Script}

/-- A dash stands for an underscore in a description. -/
abbrev Dashless (name : String) : Prop := '-' ∉ name.toList

/-- No word has a dash in it, and neither has a scratch signal. -/
theorem nameRule_dashless : NameRule Dashless where
  word := by
    intro chars _ hchars _ hm
    rw [String.toList_ofList] at hm
    exact absurd (hchars _ hm) (by decide)
  formula := by
    rintro _ ⟨c, more, rfl, hc, hmore⟩ hm
    rw [String.toList_ofList] at hm
    rcases List.mem_cons.mp hm with rfl | hm
    · exact absurd hc (by decide +kernel)
    · exact absurd (hmore _ hm) (by decide +kernel)
  scratch := by decide +kernel
  each := by decide

theorem Operand.Named.dashless {operand : Operand} (h : operand.Named Dashless) :
    ∀ name ∈ operand.names, Dashless name := by
  cases operand with
  | signal name =>
    intro other ho
    rw [List.mem_singleton.mp ho]
    exact h
  | constant value => simp [Operand.names]

namespace Condition

variable {left right : Operand}

/-- A payload of arithmetic survives the exchange if its names do. -/
theorem exchangeable_arithmetic {op : Arith} (hl : left.Named Dashless)
    (hr : right.Named Dashless) (ho : Dashless out) :
    (arithmetic left op right out).Exchangeable := by
  refine ⟨fun name hm => ?_, fun _ _ _ _ _ h => nomatch h⟩
  rcases List.mem_cons.mp hm with rfl | hm
  · exact ho
  · rcases List.mem_append.mp hm with hm | hm
    · exact hl.dashless name hm
    · exact hr.dashless name hm

theorem exchangeable_decider {first : String} {op : Comparator} {counting : Bool}
    (hf : Dashless first) (hr : right.Named Dashless) (ho : Dashless out) :
    (decider (.signal first) op right out counting).Exchangeable := by
  refine ⟨fun name hm => ?_, fun _ _ _ _ _ h => nomatch h⟩
  rcases List.mem_cons.mp hm with rfl | hm
  · exact ho
  · rcases List.mem_cons.mp hm with rfl | hm
    · exact hf
    · exact hr.dashless name hm

end Condition

open Condition (exchangeable_arithmetic exchangeable_decider)

theorem Step.Named.exchangeable {step : Step} (h : step.Named Dashless) :
    (Condition.arithmetic step.left step.op step.right step.out).Exchangeable :=
  exchangeable_arithmetic h.left h.right h.out

theorem named_passthrough : Step.passthrough.Named Dashless :=
  ⟨nameRule_dashless.each, trivial, nameRule_dashless.each⟩

/-- The steps of a side write last what the comparison reads. -/
theorem Side.Shaped.named_operand {P : String → Prop} (h : side.Shaped P) :
    side.operand.Named P := by
  cases h with
  | value h => exact h
  | series hne h =>
    next scope steps =>
    have hlast : (steps.map Step.out) =
        (steps.dropLast.map Step.out) ++ [(steps.getLast hne).out] := by
      rw [← List.map_singleton, ← List.map_append, List.dropLast_append_getLast hne]
    rw [Side.operand, lastOut?_map_step hlast]
    exact (h _ (List.getLast_mem hne)).out

namespace Layout

theorem mem_bodyPayloads {body : List Node} :
    condition ∈ bodyPayloads body ↔ ∃ node ∈ body, condition ∈ payloads node := by
  induction body with
  | nil => simp [bodyPayloads]
  | cons node rest ih => simp [bodyPayloads, ih]

/-- Every payload of the construct can be described. -/
def Describable (node : Node) : Prop := ∀ condition ∈ payloads node, condition.Exchangeable

/-- What a body places is what its members place. -/
theorem exchangeable_bodyPayloads {body : List Node} (h : ∀ node ∈ body, Describable node) :
    ∀ condition ∈ bodyPayloads body, condition.Exchangeable := by
  intro condition hm
  obtain ⟨node, hn, hm⟩ := mem_bodyPayloads.mp hm
  exact h node hn condition hm

theorem describable_step {step : Step} (h : step.Named Dashless) : Describable (.step step) := by
  intro condition hm
  rw [List.mem_singleton.mp hm]
  exact h.exchangeable

theorem describable_steps {steps : List Step} (h : ∀ step ∈ steps, step.Named Dashless) :
    ∀ condition ∈ bodyPayloads (steps.map .step), condition.Exchangeable := by
  refine exchangeable_bodyPayloads fun node hm => ?_
  obtain ⟨step, hs, rfl⟩ := List.mem_map.mp hm
  exact describable_step (h step hs)

/-- A side that is a leaf places nothing. -/
theorem describable_side (h : side.Shaped Dashless) :
    ∀ condition ∈ sidePayloads side, condition.Exchangeable := by
  cases h with
  | value => exact fun condition hm => absurd hm List.not_mem_nil
  | series _ h => exact describable_steps h

/-- A comparison reads a signal first, so its decider can be described. -/
theorem describable_test (h : test.IsTest Dashless out) (ho : Dashless out) : Describable test := by
  induction h with
  | compare hl hs hr =>
    have hfirst := hl.named_operand
    rw [hs] at hfirst
    intro condition hm
    rw [payloads, hs] at hm
    rcases List.mem_append.mp hm with hm | hm
    · rcases List.mem_append.mp hm with hm | hm
      · rcases List.mem_append.mp hm with hm | hm
        · exact describable_side hl condition hm
        · exact describable_side hr condition hm
      · rw [List.mem_singleton.mp hm]
        exact exchangeable_decider hfirst hr.named_operand ho
    · split at hm
      · rw [List.mem_singleton.mp hm]
        exact exchangeable_decider ho trivial ho
      · cases hm
  | and _ _ _ ih | or _ _ _ ih =>
    intro condition hm
    rw [payloads] at hm
    rcases List.mem_append.mp hm with hm | hm
    · exact exchangeable_bodyPayloads ih condition hm
    · rw [List.mem_singleton.mp hm]
      exact exchangeable_decider ho trivial ho

theorem describable_assignment (h : node.IsAssignment Dashless) : Describable node := by
  cases h with
  | replacing ht hne h =>
    refine exchangeable_bodyPayloads fun node hm => ?_
    simp only [replacing, List.mem_cons, List.not_mem_nil, or_false] at hm
    rcases hm with rfl | rfl | rfl
    · exact describable_step named_passthrough
    · exact describable_steps h
    · exact describable_step ⟨ht, trivial, ht⟩
  | scaling ht =>
    refine exchangeable_bodyPayloads fun node hm => ?_
    simp only [scaling, List.mem_cons, List.not_mem_nil, or_false] at hm
    rcases hm with rfl | rfl
    · exact describable_step named_passthrough
    · refine exchangeable_bodyPayloads fun node hm => ?_
      rw [List.mem_singleton.mp hm]
      exact describable_step ⟨ht, trivial, ht⟩

/-- The combinators of a gate name nothing but the signal of its condition and the two that stand
for many. -/
theorem exchangeable_gate (ho : Dashless out) :
    ∀ condition ∈ Gate.payloads out, condition.Exchangeable := by
  have heach := nameRule_dashless.each
  have heverything : Dashless everything := by decide
  intro condition hm
  simp only [Gate.payloads, List.mem_cons, List.not_mem_nil, or_false] at hm
  rcases hm with rfl | rfl | rfl | rfl | rfl
  · exact exchangeable_arithmetic heach trivial heach
  · exact exchangeable_decider ho trivial ho
  · exact exchangeable_arithmetic ho trivial ho
  · exact named_passthrough.exchangeable
  · exact exchangeable_decider ho trivial heverything

theorem describable_of_shaped (h : node.Shaped Dashless context) : Describable node := by
  induction h with
  | step _ h => exact describable_step h
  | assignment _ h => exact describable_assignment h
  | conditional ho ht _ ih =>
    intro condition hm
    rw [payloads] at hm
    rcases List.mem_append.mp hm with hm | hm
    · exact describable_test ht ho condition hm
    · rcases List.mem_append.mp hm with hm | hm
      · exact exchangeable_bodyPayloads ih condition hm
      · exact exchangeable_gate ho condition hm
  | chain _ ih | parallel _ ih | series _ ih => exact exchangeable_bodyPayloads ih

/-- An entity of a layout has no payload but what its program asks for. -/
theorem mem_payloads_of_entity {entity : Entity} (hm : entity ∈ script.lower.blueprint.entities)
    (hc : entity.condition = some condition) : condition ∈ bodyPayloads script.body := by
  obtain ⟨inventory, hl, hr⟩ := draft_realizes script
  obtain ⟨hb, -⟩ := leaves_empty hl
  obtain ⟨item, hi, hbears⟩ := exists_bears hb entity (Array.mem_toList_iff.mpr hm)
  rw [← hr.carries.items]
  cases item with
  | none =>
    rw [hbears.2] at hc
    cases hc
  | some payload =>
    rw [hbears.2] at hc
    exact List.mem_filterMap.mpr ⟨_, hi, hc⟩

end Layout

end CircuitScript
