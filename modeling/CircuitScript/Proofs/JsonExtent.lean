import CircuitScript.Json.Decode
import CircuitScript.Json.Reader
import Mathlib.Data.List.Forall2
/-!
The extent of JSON values. A value never has more items and members than the text it is read from
has characters, so a text bounds the lists that are read from it.
-/
namespace CircuitScript.Json

variable {α : Type} {json value : Json} {cs rest : List Char} {fuel : Nat}

mutual

/-- How many items and members a value has, at all levels. -/
def extent : Json → Nat
  | array items => itemsExtent items
  | object members => membersExtent members
  | _ => 0

def itemsExtent : List Json → Nat
  | [] => 0
  | item :: rest => item.extent + 1 + itemsExtent rest

def membersExtent : List (Option String × Json) → Nat
  | [] => 0
  | (_, value) :: rest => value.extent + 1 + membersExtent rest

end

theorem length_skipBlanks_le (cs : List Char) : (skipBlanks cs).length ≤ cs.length :=
  (List.dropWhile_sublist _).length_le

/-- Behind some blanks a character is taken. -/
theorem length_lt_of_skipBlanks {c : Char} (h : skipBlanks cs = c :: rest) :
    rest.length < cs.length := by
  have hle := length_skipBlanks_le cs
  rw [h, List.length_cons] at hle
  exact hle

theorem length_digits? {digits : List Char} (h : digits? cs = some (digits, rest)) :
    rest.length ≤ cs.length := by
  unfold digits? at h
  split at h
  · cases h
  · cases h
    exact (List.dropWhile_sublist _).length_le

theorem length_wholePart? {digits : List Char} (h : wholePart? cs = some (digits, rest)) :
    rest.length ≤ cs.length := by
  unfold wholePart? at h
  split at h
  · split at h
    · cases h
    · cases h
      exact Nat.le_succ _
  · exact length_digits? h

theorem length_fractionPart? {digits : Option (List Char)}
    (h : fractionPart? cs = some (digits, rest)) : rest.length ≤ cs.length := by
  unfold fractionPart? at h
  split at h
  · obtain ⟨⟨found, left⟩, hdigits, heq⟩ := Option.map_eq_some_iff.mp h
    cases heq
    exact Nat.le_succ_of_le (length_digits? hdigits)
  · cases h
    exact Nat.le_refl _

theorem length_exponentPart? {digits : Option (Bool × List Char)}
    (h : exponentPart? cs = some (digits, rest)) : rest.length ≤ cs.length := by
  unfold exponentPart? at h
  split at h
  · next c tail =>
    split at h
    · obtain ⟨⟨found, left⟩, hdigits, heq⟩ := Option.map_eq_some_iff.mp h
      cases heq
      have hle := length_digits? hdigits
      refine Nat.le_succ_of_le (Nat.le_trans hle ?_)
      split <;> simp
    · cases h
      exact Nat.le_refl _
  · cases h
    exact Nat.le_refl _

theorem length_numeral? {numeral : Numeral} (h : numeral? cs = some (numeral, rest)) :
    rest.length ≤ cs.length := by
  unfold numeral? at h
  simp only [Option.bind_eq_bind, Option.bind_eq_some_iff] at h
  obtain ⟨⟨whole, afterWhole⟩, hwhole, ⟨fraction, afterFraction⟩, hfraction,
    ⟨exponent, afterExponent⟩, hexponent, heq⟩ := h
  cases heq
  have h1 := length_wholePart? hwhole
  have h2 := length_fractionPart? hfraction
  have h3 := length_exponentPart? hexponent
  refine Nat.le_trans (Nat.le_trans h3 (Nat.le_trans h2 h1)) ?_
  split <;> simp

theorem length_pieces? {pieces : List Piece} (h : pieces? cs = some (pieces, rest)) :
    rest.length ≤ cs.length := by
  fun_induction pieces? cs generalizing pieces with
  | case1 => cases h
  | case2 tail =>
    cases h
    exact Nat.le_succ _
  | case3 a b c d tail ih =>
    simp only [Option.bind_eq_bind, Option.bind_eq_some_iff] at h
    obtain ⟨value, -, ⟨more, left⟩, hmore, heq⟩ := h
    cases heq
    have hle : left.length ≤ tail.length := ih hmore
    simp only [List.length_cons]
    omega
  | case4 c tail hne ih =>
    simp only [Option.bind_eq_bind, Option.bind_eq_some_iff] at h
    obtain ⟨value, -, ⟨more, left⟩, hmore, heq⟩ := h
    cases heq
    have hle : left.length ≤ tail.length := ih hmore
    simp only [List.length_cons]
    omega
  | case5 => cases h
  | case6 c tail hquote hunit hescape hplain ih =>
    simp only [Option.bind_eq_bind, Option.bind_eq_some_iff] at h
    obtain ⟨⟨more, left⟩, hmore, heq⟩ := h
    cases heq
    exact Nat.le_succ_of_le (ih hmore)

theorem length_textAfter? {text : Option String} (h : textAfter? cs = some (text, rest)) :
    rest.length ≤ cs.length := by
  obtain ⟨⟨pieces, left⟩, hpieces, heq⟩ := Option.map_eq_some_iff.mp h
  cases heq
  exact length_pieces? hpieces

theorem length_keyword? {word : String} (h : keyword? word cs = some rest) :
    rest.length ≤ cs.length := by
  unfold keyword? at h
  split at h
  · cases h
    rw [List.length_drop]
    exact Nat.sub_le _ _
  · cases h

theorem extent_of_map {β : Type} {read : Option (β × List Char)} {make : β → Json} {bound : Nat}
    (h : read.map (fun (b, left) => (make b, left)) = some (json, rest))
    (hread : ∀ {b left}, read = some (b, left) → (make b).extent + left.length ≤ bound) :
    json.extent + rest.length ≤ bound := by
  obtain ⟨⟨b, left⟩, hfound, heq⟩ := Option.map_eq_some_iff.mp h
  cases heq
  exact hread hfound

theorem extent_of_keyword? {c : Char} {word : String} {tail : List Char}
    (hstart : skipBlanks cs = c :: tail) (hv : value.extent = 0)
    (h : (keyword? word tail).map (fun left => (value, left)) = some (json, rest)) :
    json.extent + rest.length ≤ cs.length := by
  have htail := length_lt_of_skipBlanks hstart
  obtain ⟨left, hword, heq⟩ := Option.map_eq_some_iff.mp h
  cases heq
  have hle := length_keyword? hword
  omega

mutual

/-- The extent of a value and what is left behind it make no more than the text. -/
theorem extent_value? (fuel : Nat) {cs rest : List Char} {json : Json}
    (h : value? fuel cs = some (json, rest)) : json.extent + rest.length ≤ cs.length := by
  cases fuel with
  | zero => cases h
  | succ fuel =>
    unfold value? at h
    split at h
    · next tail hstart =>
      have htail := length_lt_of_skipBlanks hstart
      refine extent_of_map h fun htext => ?_
      have hle := length_textAfter? htext
      simp only [extent]
      omega
    · next tail hstart =>
      have htail := length_lt_of_skipBlanks hstart
      split at h
      · next left hclose =>
        have hleft := length_lt_of_skipBlanks hclose
        cases h
        simp only [extent, itemsExtent]
        omega
      · refine extent_of_map h fun hitems => ?_
        have hle := extent_items? fuel hitems
        simp only [extent]
        omega
    · next tail hstart =>
      have htail := length_lt_of_skipBlanks hstart
      split at h
      · next left hclose =>
        have hleft := length_lt_of_skipBlanks hclose
        cases h
        simp only [extent, membersExtent]
        omega
      · refine extent_of_map h fun hmembers => ?_
        have hle := extent_members? fuel hmembers
        simp only [extent]
        omega
    · next tail hstart => exact extent_of_keyword? hstart (by simp [extent]) h
    · next tail hstart => exact extent_of_keyword? hstart (by simp [extent]) h
    · next tail hstart => exact extent_of_keyword? hstart (by simp [extent]) h
    · refine extent_of_map h fun hnumeral => ?_
      have hle := length_numeral? hnumeral
      have hblanks := length_skipBlanks_le cs
      simp only [extent]
      omega

theorem extent_items? (fuel : Nat) {cs rest : List Char} {items : List Json}
    (h : items? fuel cs = some (items, rest)) : itemsExtent items + rest.length ≤ cs.length := by
  cases fuel with
  | zero => cases h
  | succ fuel =>
    unfold items? at h
    simp only [Option.bind_eq_bind, Option.bind_eq_some_iff] at h
    obtain ⟨⟨item, left⟩, hitem, h⟩ := h
    have hfirst := extent_value? fuel hitem
    dsimp only at h
    split at h
    · next tail hcomma =>
      have htail := length_lt_of_skipBlanks hcomma
      simp only [Option.bind_eq_some_iff] at h
      obtain ⟨⟨more, left⟩, hmore, heq⟩ := h
      cases heq
      have hrest := extent_items? fuel hmore
      simp only [itemsExtent]
      omega
    · next tail hclose =>
      have htail := length_lt_of_skipBlanks hclose
      cases h
      simp only [itemsExtent]
      omega
    · cases h

theorem extent_members? (fuel : Nat) {cs rest : List Char} {members : List (Option String × Json)}
    (h : members? fuel cs = some (members, rest)) :
    membersExtent members + rest.length ≤ cs.length := by
  cases fuel with
  | zero => cases h
  | succ fuel =>
    unfold members? at h
    split at h
    · next tail hquote =>
      have htail := length_lt_of_skipBlanks hquote
      simp only [Option.bind_eq_bind, Option.bind_eq_some_iff] at h
      obtain ⟨⟨key, afterKey⟩, hkey, h⟩ := h
      have hkeyLength := length_textAfter? hkey
      dsimp only at h
      split at h
      · next afterColon hcolon =>
        have hcolonLength := length_lt_of_skipBlanks hcolon
        simp only [Option.bind_eq_some_iff] at h
        obtain ⟨⟨value, afterValue⟩, hvalue, h⟩ := h
        have hfirst := extent_value? fuel hvalue
        dsimp only at h
        split at h
        · next afterComma hcomma =>
          have hcommaLength := length_lt_of_skipBlanks hcomma
          simp only [Option.bind_eq_some_iff] at h
          obtain ⟨⟨more, left⟩, hmore, heq⟩ := h
          cases heq
          have hrest := extent_members? fuel hmore
          simp only [membersExtent]
          omega
        · next afterBrace hclose =>
          have hcloseLength := length_lt_of_skipBlanks hclose
          cases h
          simp only [membersExtent]
          omega
        · cases h
      · cases h
    · cases h

end

/-- A text has at least as many characters as the value has items and members. -/
theorem extent_parse? (h : parse? cs = some json) : json.extent ≤ cs.length := by
  unfold parse? at h
  split at h
  · next value left hvalue =>
    split at h
    · cases h
      have hle := extent_value? _ hvalue
      omega
    · cases h
  · cases h

theorem extent_le_itemsExtent {items : List Json} (h : json ∈ items) :
    json.extent ≤ itemsExtent items := by
  induction items with
  | nil => cases h
  | cons item rest ih =>
    simp only [itemsExtent]
    rcases List.mem_cons.mp h with rfl | hm
    · omega
    · have hle := ih hm
      omega

theorem extent_le_membersExtent {members : List (Option String × Json)} {key : Option String}
    (h : (key, json) ∈ members) : json.extent ≤ membersExtent members := by
  induction members with
  | nil => cases h
  | cons member rest ih =>
    obtain ⟨other, value⟩ := member
    simp only [membersExtent]
    rcases List.mem_cons.mp h with heq | hm
    · cases heq
      omega
    · have hle := ih hm
      omega

theorem length_le_itemsExtent (items : List Json) : items.length ≤ itemsExtent items := by
  induction items with
  | nil => exact Nat.le_refl _
  | cons item rest ih =>
    simp only [itemsExtent, List.length_cons]
    omega

theorem forall₂_of_mapM {β : Type} {f : α → Option β} {list : List α} {results : List β}
    (h : list.mapM f = some results) : List.Forall₂ (fun a b => f a = some b) list results := by
  induction list generalizing results with
  | nil =>
    cases h
    exact .nil
  | cons a rest ih =>
    simp only [List.mapM_cons, Option.bind_eq_bind, Option.bind_eq_some_iff] at h
    obtain ⟨b, hb, more, hmore, heq⟩ := h
    cases heq
    exact .cons hb (ih hmore)

theorem exists_of_forall₂ {β : Type} {R : α → β → Prop} {list : List α} {results : List β} {b : β}
    (h : List.Forall₂ R list results) (hm : b ∈ results) : ∃ a ∈ list, R a b := by
  induction h with
  | nil => cases hm
  | cons hr _ ih =>
    rcases List.mem_cons.mp hm with rfl | hm
    · exact ⟨_, List.mem_cons_self, hr⟩
    · obtain ⟨a, ha, hab⟩ := ih hm
      exact ⟨a, List.mem_cons_of_mem _ ha, hab⟩

/-- A list is no longer than the extent of the value that it is read from. -/
theorem length_list? {item : Json → Option α} {list : List α} (h : list? item json = some list) :
    list.length ≤ json.extent := by
  unfold list? at h
  split at h
  · next items =>
    rw [← (forall₂_of_mapM h).length_eq, extent]
    exact length_le_itemsExtent items
  · cases h

theorem extent_of_mem_valuesOf {key : String} {members : List (Option String × Json)}
    (h : value ∈ valuesOf key members) : value.extent ≤ membersExtent members := by
  obtain ⟨⟨other, found⟩, hm, rfl⟩ := List.mem_map.mp h
  exact extent_le_membersExtent (List.mem_of_mem_filter hm)

/-- The fields of a record lie in it. -/
theorem extent_fields? {names : List String} {fields : List (Option Json)}
    (h : json.fields? names = some fields) (hm : some value ∈ fields) :
    value.extent ≤ json.extent := by
  unfold fields? at h
  split at h
  · next members =>
    split at h
    · cases h
    · rw [extent]
      obtain ⟨name, -, hname⟩ := exists_of_forall₂ (forall₂_of_mapM h) hm
      split at hname
      · cases hname
      · next hvalues =>
        cases hname
        exact extent_of_mem_valuesOf (hvalues ▸ List.mem_singleton_self value)
      · cases hname
  · next items =>
    split at h
    · cases h
    · cases h
      rw [extent]
      rcases List.mem_append.mp hm with hm | hm
      · obtain ⟨found, hfound, heq⟩ := List.mem_map.mp hm
        cases heq
        exact extent_le_itemsExtent hfound
      · cases List.eq_of_mem_replicate hm
  · cases h

end CircuitScript.Json
