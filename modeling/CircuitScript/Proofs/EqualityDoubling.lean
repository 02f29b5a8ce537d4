import CircuitScript.Expr.Reader
/-!
What doubling the signs of equality does to a text. Which signs are doubled is decided by their
neighbours in the text that is read; afterwards none stands alone any more, so a second pass finds
nothing to do.
-/
namespace CircuitScript

variable {previous : Option Char} {c : Char} {cs : List Char} {i : Nat}

/-- The character to the left of an index, in a text that comes after `previous`. -/
def leftOf (previous : Option Char) (cs : List Char) : Nat → Option Char
  | 0 => previous
  | i + 1 => cs[i]?

/-- At the index stands a `=` that is no part of a longer operator: it is not joined to what is left
of it, and the next character is not another one. -/
def StandsAlone (previous : Option Char) (cs : List Char) (i : Nat) : Prop :=
  cs[i]? = some '=' ∧ leftOf previous cs i ∉ [some '=', some '<', some '>', some '!'] ∧
    cs[i + 1]? ≠ some '='

instance : Decidable (StandsAlone previous cs i) := inferInstanceAs (Decidable (_ ∧ _ ∧ _))

/-- Every `=` has another one next to it, or comes right after `<`, `>` or `!`. -/
def Paired (previous : Option Char) (cs : List Char) : Prop :=
  ∀ i, cs[i]? = some '=' → leftOf previous cs i = some '=' ∨ cs[i + 1]? = some '=' ∨
    leftOf previous cs i ∈ [some '<', some '>', some '!']

theorem joinsEquality_iff :
    joinsEquality previous = true ↔ previous ∈ [some '=', some '<', some '>', some '!'] := by
  constructor
  · intro h
    unfold joinsEquality at h
    split at h <;> simp_all
  · intro h
    simp only [List.mem_cons, List.not_mem_nil, or_false] at h
    rcases h with rfl | rfl | rfl | rfl <;> rfl

theorem standsAlone_zero : StandsAlone previous (c :: cs) 0 ↔
    c = '=' ∧ (joinsEquality previous || cs.head? == some '=') = false := by
  rw [StandsAlone, leftOf, ← joinsEquality_iff, Bool.or_eq_false_iff, Bool.not_eq_true,
    beq_eq_false_iff_ne, List.getElem?_cons_zero, Option.some_inj, List.getElem?_cons_succ,
    List.head?_eq_getElem?]

theorem leftOf_succ : leftOf previous (c :: cs) (i + 1) = leftOf (some c) cs i := by
  cases i <;> rfl

/-- Behind its first character a text is one that comes after that character. -/
theorem standsAlone_succ :
    StandsAlone previous (c :: cs) (i + 1) ↔ StandsAlone (some c) cs i := by
  rw [StandsAlone, StandsAlone, leftOf_succ, List.getElem?_cons_succ, List.getElem?_cons_succ]

theorem paired_iff : Paired previous cs ↔ ∀ i, ¬ StandsAlone previous cs i := by
  refine forall_congr' fun i => ?_
  simp only [StandsAlone, List.mem_cons, List.not_mem_nil, or_false]
  grind

theorem paired_cons :
    Paired previous (c :: cs) ↔ ¬ StandsAlone previous (c :: cs) 0 ∧ Paired (some c) cs := by
  simp only [paired_iff]
  constructor
  · intro h
    exact ⟨h 0, fun i hi => h (i + 1) (standsAlone_succ.mpr hi)⟩
  · rintro ⟨hfirst, hrest⟩ i
    cases i with
    | zero => exact hfirst
    | succ i => exact fun hi => hrest i (standsAlone_succ.mp hi)

/-- The pass looks at each character once: it writes two signs for one that stands alone, and else
what it reads. -/
theorem doubleEquality_cons : doubleEquality previous (c :: cs) =
    (if StandsAlone previous (c :: cs) 0 then [c, c] else [c]) ++ doubleEquality (some c) cs := by
  by_cases hc : c = '='
  · subst hc
    simp only [standsAlone_zero, true_and, doubleEquality]
    cases joinsEquality previous || cs.head? == some '=' <;> rfl
  · rw [if_neg (fun h => hc (standsAlone_zero.mp h).1), doubleEquality]
    · rfl
    · exact hc

theorem head?_doubleEquality : (doubleEquality previous cs).head? = cs.head? := by
  cases cs with
  | nil => rfl
  | cons c cs =>
    rw [doubleEquality_cons]
    split <;> rfl

/-- Whether a sign is doubled depends only on its neighbours in the text that is read. -/
theorem doubleEquality_eq_flatten : doubleEquality previous cs =
    (cs.mapIdx fun i c => if StandsAlone previous cs i then [c, c] else [c]).flatten := by
  induction cs generalizing previous with
  | nil => rfl
  | cons c cs ih =>
    rw [doubleEquality_cons, List.mapIdx_cons, List.flatten_cons, ih]
    simp only [standsAlone_succ]

/-- A sign that was doubled has its copy next to it. One that was not has the neighbours it had,
since what is written always begins with the character that was read. -/
theorem paired_doubleEquality : Paired previous (doubleEquality previous cs) := by
  induction cs generalizing previous with
  | nil => exact fun i hi => by simp [doubleEquality] at hi
  | cons c cs ih =>
    rw [doubleEquality_cons]
    split
    · next halone =>
      obtain ⟨rfl, -⟩ := standsAlone_zero.mp halone
      refine paired_cons.mpr ⟨fun h => ?_, paired_cons.mpr ⟨fun h => ?_, ih⟩⟩
      · exact h.2.2 rfl
      · exact h.2.1 (List.mem_cons_self ..)
    · next halone =>
      rw [List.singleton_append]
      refine paired_cons.mpr ⟨fun h => halone ?_, ih⟩
      rw [standsAlone_zero, head?_doubleEquality] at h
      exact standsAlone_zero.mpr h

theorem doubleEquality_of_paired (h : Paired previous cs) : doubleEquality previous cs = cs := by
  induction cs generalizing previous with
  | nil => rfl
  | cons c cs ih =>
    obtain ⟨hfirst, hrest⟩ := paired_cons.mp h
    rw [doubleEquality_cons, if_neg hfirst, ih hrest, List.singleton_append]

/-- Just the signs that stand alone in the text are doubled, which leaves every sign paired. A text
stays as it is exactly if all its signs are paired; so a second pass changes nothing. -/
theorem doubleEquality_pairs (cs : List Char) :
    doubleEquality none cs =
      (cs.mapIdx fun i c => if StandsAlone none cs i then [c, c] else [c]).flatten ∧
    Paired none (doubleEquality none cs) ∧
    (doubleEquality none cs = cs ↔ Paired none cs) ∧
    doubleEquality none (doubleEquality none cs) = doubleEquality none cs := by
  refine ⟨doubleEquality_eq_flatten, paired_doubleEquality, ⟨fun h => ?_, doubleEquality_of_paired⟩,
    doubleEquality_of_paired paired_doubleEquality⟩
  rw [← h]
  exact paired_doubleEquality

/-- Runs of signs, with and without what they may be joined to. -/
example : doubleEquality none "=a=b<=c!==d===e=>=".toList = "==a==b<=c!==d===e==>=".toList := by
  decide

end CircuitScript
