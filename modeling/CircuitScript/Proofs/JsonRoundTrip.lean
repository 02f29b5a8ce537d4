import CircuitScript.Json.Reader
import CircuitScript.Json.Writer
/-!
Reading a written value gives it back. Every value whose numbers follow the grammar and whose texts
are texts is read from its one-line form exactly as it was, up to whatever follows it.
-/
namespace CircuitScript

/-- One or more digits. -/
def Numeral.Digits (cs : List Char) : Prop := cs ≠ [] ∧ ∀ c ∈ cs, isDigit c = true

/-- A numeral that the grammar admits: digits where digits are due, and no zero before others. -/
structure Numeral.WellFormed (n : Numeral) : Prop where
  whole : Digits n.whole
  leading : n.whole.head? = some '0' → n.whole = ['0']
  fraction : ∀ ds, n.fraction = some ds → Digits ds
  exponent : ∀ negative ds, n.exponent = some (negative, ds) → Digits ds

namespace Json

/-- The pieces that a character may be written with. -/
inductive Piece.Gives : Piece → Char → Prop
  | char (c : Char) : Gives (.char c) c
  | unit {c : Char} (h : c.toNat < 0x20) : Gives (.unit c.toNat) c

theorem assemble?_cons {piece : Piece} {c : Char} (h : piece.Gives c) (rest : List Piece) :
    assemble? (piece :: rest) = (assemble? rest).map (c :: ·) := by
  cases h with
  | char => simp [assemble?]
  | unit h =>
    have hhigh : isHighSurrogate c.toNat = false := by
      simp only [isHighSurrogate, Bool.and_eq_false_iff, decide_eq_false_iff_not]
      omega
    have hlow : isLowSurrogate c.toNat = false := by
      simp only [isLowSurrogate, Bool.and_eq_false_iff, decide_eq_false_iff_not]
      omega
    match rest with
    | [] | .char _ :: _ | .unit _ :: _ => simp [assemble?, hhigh, hlow, Char.ofNat_toNat]

/-- A control is written with the two hexadecimal digits of its code. -/
theorem toList_control : ∀ n < 0x20,
    ("\\u00" ++ (if n < 0x10 then "0" else "") ++ Text.hex n).toList =
      ['\\', 'u', '0', '0', Nat.digitChar (n / 16), Nat.digitChar (n % 16)] := by
  decide

theorem unit?_control : ∀ n < 0x20,
    unit? '0' '0' (Nat.digitChar (n / 16)) (Nat.digitChar (n % 16)) = some n := by
  decide

theorem pieces?_plain {c : Char} (hcontrol : ¬ c.toNat < 0x20) (hquote : c ≠ '"')
    (hslash : c ≠ '\\') (cs : List Char) :
    pieces? (c :: cs) = (pieces? cs).map fun read => (.char c :: read.1, read.2) := by
  rw [pieces?]
  · simp only [hcontrol, decide_false, beq_eq_false_iff_ne.2 hslash, Bool.or_self,
      Bool.false_eq_true, if_false]
    cases pieces? cs <;> rfl
  · exact hquote
  · intro _ _ _ _ _ h
    exact absurd h hslash
  · intro _ _ h
    exact absurd h hslash

theorem pieces?_letter {letter c : Char} (h : letterEscape? letter = some c) (cs : List Char) :
    pieces? ('\\' :: letter :: cs) =
      (pieces? cs).map fun read => (.char c :: read.1, read.2) := by
  rw [pieces?]
  · rw [h]
    cases pieces? cs <;> rfl
  · rintro _ _ _ _ _ rfl
    simp [letterEscape?] at h

theorem pieces?_escapeChar (c : Char) : ∃ piece : Piece, piece.Gives c ∧ ∀ cs,
    pieces? ((escapeChar c).toList ++ cs) =
      (pieces? cs).map fun read => (piece :: read.1, read.2) := by
  unfold escapeChar
  split
  case h_8 hquote hslash _ _ _ _ _ =>
    split
    · next h =>
      refine ⟨.unit c.toNat, .unit h, fun cs => ?_⟩
      rw [toList_control _ h]
      simp only [List.cons_append, List.nil_append, pieces?, unit?_control _ h]
      cases pieces? cs <;> rfl
    · next h =>
      refine ⟨.char c, .char c, fun cs => ?_⟩
      rw [String.toList_singleton]
      exact pieces?_plain h hquote hslash cs
  all_goals
    refine ⟨.char _, .char _, fun cs => ?_⟩
    simp only [String.reduceToList, List.cons_append, List.nil_append]
    exact pieces?_letter rfl cs

theorem pieces?_escaped (cs rest : List Char) : ∃ pieces,
    pieces? (cs.flatMap (fun c => (escapeChar c).toList) ++ '"' :: rest) = some (pieces, rest) ∧
      assemble? pieces = some cs := by
  induction cs with
  | nil => exact ⟨[], by simp [pieces?], by simp [assemble?]⟩
  | cons c cs ih =>
    obtain ⟨piece, hgives, hread⟩ := pieces?_escapeChar c
    obtain ⟨pieces, hpieces, hassemble⟩ := ih
    refine ⟨piece :: pieces, ?_, ?_⟩
    · rw [List.flatMap_cons, List.append_assoc, hread, hpieces]
      rfl
    · rw [assemble?_cons hgives, hassemble]
      rfl

theorem toList_renderText (text : String) : (renderText text).toList =
    '"' :: (text.toList.flatMap (fun c => (escapeChar c).toList) ++ ['"']) := by
  simp [renderText, String.toList_join, List.flatMap_map]

theorem textAfter?_escaped (text : String) (rest : List Char) :
    textAfter? (text.toList.flatMap (fun c => (escapeChar c).toList) ++ '"' :: rest) =
      some (some text, rest) := by
  obtain ⟨pieces, hpieces, hassemble⟩ := pieces?_escaped text.toList rest
  simp [textAfter?, hpieces, hassemble]

/-- A text that no number runs on into. -/
def EndsNumber (rest : List Char) : Prop :=
  rest.head?.all fun c => !(Numeral.isDigit c || c == '.' || c == 'e' || c == 'E')

theorem digits?_append {ds rest : List Char} (h : Numeral.Digits ds)
    (hrest : rest.head?.all fun c => !Numeral.isDigit c) :
    digits? (ds ++ rest) = some (ds, rest) := by
  have htail : rest.takeWhile Numeral.isDigit = [] ∧ rest.dropWhile Numeral.isDigit = rest := by
    cases rest <;> simp_all
  have htake : (ds ++ rest).takeWhile Numeral.isDigit = ds := by
    rw [List.takeWhile_append_of_pos h.2, htail.1, List.append_nil]
  have hdrop : (ds ++ rest).dropWhile Numeral.isDigit = rest := by
    rw [List.dropWhile_append_of_pos h.2, htail.2]
  unfold digits?
  rw [htake, hdrop]
  obtain ⟨d, ds, rfl⟩ := List.exists_cons_of_ne_nil h.1
  rfl

theorem wholePart?_append {ds rest : List Char} (h : Numeral.Digits ds)
    (hlead : ds.head? = some '0' → ds = ['0'])
    (hrest : rest.head?.all fun c => !Numeral.isDigit c) :
    wholePart? (ds ++ rest) = some (ds, rest) := by
  obtain ⟨d, ds, rfl⟩ := List.exists_cons_of_ne_nil h.1
  by_cases hd : d = '0'
  · subst hd
    obtain rfl : ds = [] := by simpa using hlead rfl
    cases rest <;> simp_all [wholePart?]
  · rw [← digits?_append h hrest]
    rw [List.cons_append, wholePart?]
    rintro _ heq
    exact absurd (List.cons.inj heq).1 hd

def fractionChars : Option (List Char) → List Char
  | some ds => '.' :: ds
  | none => []

def exponentChars : Option (Bool × List Char) → List Char
  | some (true, ds) => 'e' :: '-' :: ds
  | some (false, ds) => 'e' :: ds
  | none => []

theorem toList_numeral (n : Numeral) : n.render.toList =
    (if n.negative then ['-'] else []) ++
      (n.whole ++ (fractionChars n.fraction ++ exponentChars n.exponent)) := by
  obtain ⟨negative, whole, fraction, exponent⟩ := n
  cases negative <;> rcases fraction with _ | ds <;> rcases exponent with _ | ⟨_ | _, es⟩ <;>
    simp [Numeral.render, fractionChars, exponentChars]

theorem exponentPart?_append {exponent : Option (Bool × List Char)} {rest : List Char}
    (h : ∀ negative ds, exponent = some (negative, ds) → Numeral.Digits ds)
    (hrest : EndsNumber rest) :
    exponentPart? (exponentChars exponent ++ rest) = some (exponent, rest) := by
  have hstop : rest.head?.all fun c => !Numeral.isDigit c := by
    cases rest <;> simp_all [EndsNumber]
  rcases exponent with _ | ⟨_ | _, ds⟩
  · cases rest <;> simp_all [exponentChars, exponentPart?, EndsNumber]
  · have hds := h _ _ rfl
    obtain ⟨d, ds, rfl⟩ := List.exists_cons_of_ne_nil hds.1
    have hdigit := hds.2 d List.mem_cons_self
    have hminus : d ≠ '-' := by rintro rfl; simp [Numeral.isDigit] at hdigit
    have hplus : d ≠ '+' := by rintro rfl; simp [Numeral.isDigit] at hdigit
    have hread := digits?_append hds hstop
    simp_all [exponentChars, exponentPart?]
  · have hread := digits?_append (h _ _ rfl) hstop
    simp [exponentChars, exponentPart?, hread]

theorem fractionPart?_append {fraction : Option (List Char)} {rest : List Char}
    (h : ∀ ds, fraction = some ds → Numeral.Digits ds)
    (hrest : rest.head?.all fun c => !(Numeral.isDigit c || c == '.')) :
    fractionPart? (fractionChars fraction ++ rest) = some (fraction, rest) := by
  rcases fraction with _ | ds
  · rw [fractionChars, List.nil_append, fractionPart?]
    rintro _ rfl
    simp at hrest
  · have hstop : rest.head?.all fun c => !Numeral.isDigit c := by
      cases rest <;> simp_all
    have hread := digits?_append (h _ rfl) hstop
    simp [fractionChars, fractionPart?, hread]

/-- Where the sign of a number would stand, there is a digit. -/
theorem ne_minus_of_digits {ds : List Char} (h : Numeral.Digits ds) (rest : List Char) :
    ∀ cs, ds ++ rest ≠ '-' :: cs := by
  obtain ⟨d, ds, rfl⟩ := List.exists_cons_of_ne_nil h.1
  intro cs heq
  obtain rfl : d = '-' := (List.cons.inj heq).1
  have hdigit := h.2 '-' List.mem_cons_self
  simp [Numeral.isDigit] at hdigit

theorem numeral?_render {n : Numeral} (h : n.WellFormed) {rest : List Char}
    (hrest : EndsNumber rest) : numeral? (n.render.toList ++ rest) = some (n, rest) := by
  have hexponent := exponentPart?_append h.exponent hrest
  have hpoint : (exponentChars n.exponent ++ rest).head?.all
      fun c => !(Numeral.isDigit c || c == '.') := by
    rcases n.exponent with _ | ⟨_ | _, ds⟩ <;> cases rest <;>
      simp_all [exponentChars, EndsNumber, Numeral.isDigit]
  have hfraction := fractionPart?_append h.fraction hpoint
  have hstop : (fractionChars n.fraction ++ (exponentChars n.exponent ++ rest)).head?.all
      fun c => !Numeral.isDigit c := by
    rcases n.fraction with _ | ds
    · cases hcs : exponentChars n.exponent ++ rest <;> simp_all [fractionChars]
    · simp [fractionChars, Numeral.isDigit]
  have hwhole := wholePart?_append h.whole h.leading hstop
  have hsign := ne_minus_of_digits h.whole
    (fractionChars n.fraction ++ (exponentChars n.exponent ++ rest))
  rw [toList_numeral]
  obtain ⟨negative, whole, fraction, exponent⟩ := n
  simp only [List.append_assoc] at *
  cases negative
  · rw [if_neg Bool.false_ne_true, List.nil_append]
    unfold numeral?
    split
    next heq =>
      split at heq
      · next hminus => exact absurd hminus (hsign _)
      · cases heq
        simp [hwhole, hfraction, hexponent]
  · simp [numeral?, hwhole, hfraction, hexponent]

mutual

/-- A value that has a written form: its texts are texts, and the grammar admits its numbers. -/
def WellFormed : Json → Prop
  | null | bool _ => True
  | number value => value.WellFormed
  | string text => text.isSome
  | array items => ItemsWellFormed items
  | object members => MembersWellFormed members

def ItemsWellFormed : List Json → Prop
  | [] => True
  | item :: rest => item.WellFormed ∧ ItemsWellFormed rest

def MembersWellFormed : List (Option String × Json) → Prop
  | [] => True
  | (key, value) :: rest => key.isSome ∧ value.WellFormed ∧ MembersWellFormed rest

end

theorem wellFormed_array {items : List Json} :
    (array items).WellFormed ↔ ∀ item ∈ items, item.WellFormed := by
  rw [WellFormed]
  induction items with
  | nil => simp [ItemsWellFormed]
  | cons item rest ih => simp [ItemsWellFormed, ih]

theorem wellFormed_ofMembers {members : List (String × Json)} :
    (ofMembers members).WellFormed ↔ ∀ entry ∈ members, entry.2.WellFormed := by
  rw [ofMembers, WellFormed]
  induction members with
  | nil => simp [MembersWellFormed]
  | cons entry rest ih => simp [MembersWellFormed, ih]

/-- What a number begins with. -/
theorem head?_numeral {n : Numeral} (h : n.WellFormed) :
    ∃ c, n.render.toList.head? = some c ∧ (c = '-' ∨ Numeral.isDigit c = true) := by
  rw [toList_numeral]
  obtain ⟨d, ds, hds⟩ := List.exists_cons_of_ne_nil h.whole.1
  have hd := h.whole.2 d (by simp [hds])
  cases n.negative
  · exact ⟨d, by simp [hds], .inr hd⟩
  · exact ⟨'-', by simp, .inl rfl⟩

/-- A written value begins with a character that is neither blank nor a closing bracket. -/
theorem head?_render {json : Json} (h : json.WellFormed) :
    ∃ c, json.render.toList.head? = some c ∧ isBlank c = false ∧ c ≠ ']' := by
  cases json with
  | null => exact ⟨'n', by simp [render], by decide, by decide⟩
  | bool value =>
    cases value
    · exact ⟨'f', by simp [render], by decide, by decide⟩
    · exact ⟨'t', by simp [render], by decide, by decide⟩
  | number n =>
    obtain ⟨c, heq, hc⟩ := head?_numeral (by simpa [WellFormed] using h)
    refine ⟨c, by rw [render, heq], ?_, ?_⟩
    · rcases hc with rfl | hc
      · decide
      · simp only [isBlank, Bool.or_eq_false_iff, beq_eq_false_iff_ne, ne_eq]
        refine ⟨⟨⟨?_, ?_⟩, ?_⟩, ?_⟩ <;> rintro rfl <;> simp [Numeral.isDigit] at hc
    · rintro rfl
      simp [Numeral.isDigit] at hc
  | string text =>
    exact ⟨'"', by simp [render, renderText?, toList_renderText], by decide, by decide⟩
  | array items => exact ⟨'[', by simp [render], by decide, by decide⟩
  | object members => exact ⟨'\x7b', by simp [render], by decide, by decide⟩

theorem skipBlanks_cons {c : Char} (h : isBlank c = false) (cs : List Char) :
    skipBlanks (c :: cs) = c :: cs := by
  simp [skipBlanks, h]

theorem value?_numeral {n : Numeral} (h : n.WellFormed) {rest : List Char}
    (hrest : EndsNumber rest) (fuel : Nat) :
    value? (fuel + 1) (n.render.toList ++ rest) = some (number n, rest) := by
  have hread := numeral?_render h hrest
  have hformed : (number n).WellFormed := by simpa [WellFormed] using h
  obtain ⟨c, hhead, hblank, -⟩ := head?_render hformed
  obtain ⟨c', hhead', hc⟩ := head?_numeral h
  rw [render] at hhead
  obtain rfl : c = c' := Option.some.inj (hhead.symm.trans hhead')
  obtain ⟨cs, heq⟩ := List.head?_eq_some_iff.1 hhead
  rw [heq, List.cons_append] at hread ⊢
  rw [value?, skipBlanks_cons hblank]
  split
  case h_7 => simp [hread]
  all_goals
    next hcons =>
      obtain ⟨rfl, -⟩ := List.cons.inj hcons
      simp [Numeral.isDigit] at hc

/-- The reader sees that an array is not empty. -/
theorem value?_array {items : List Json} (hne : items ≠ []) (h : (array items).WellFormed)
    (fuel : Nat) (rest : List Char) :
    value? (fuel + 1) ((array items).render.toList ++ rest) =
      (items? fuel ((renderItems items).toList ++ ']' :: rest)).map
        fun read => (array read.1, read.2) := by
  obtain ⟨item, items, rfl⟩ := List.exists_cons_of_ne_nil hne
  have hitem : item.WellFormed := wellFormed_array.1 h item List.mem_cons_self
  obtain ⟨c, hhead, hblank, hclose⟩ := head?_render hitem
  obtain ⟨cs, heq⟩ := List.head?_eq_some_iff.1 hhead
  obtain ⟨ds, hitems⟩ : ∃ ds, (renderItems (item :: items)).toList = c :: ds := by
    cases items <;> simp [renderItems, heq]
  have htext : (array (item :: items)).render.toList ++ rest =
      '[' :: (c :: (ds ++ ']' :: rest)) := by
    simp [render, hitems]
  rw [htext, hitems, value?, skipBlanks_cons (by decide)]
  simp only [skipBlanks_cons hblank]
  split
  · next hcons => exact absurd (List.cons.inj hcons).1 hclose
  · rfl

theorem value?_object {members : List (Option String × Json)} (hne : members ≠ [])
    (fuel : Nat) (rest : List Char) :
    value? (fuel + 1) ((object members).render.toList ++ rest) =
      (members? fuel ((renderMembers members).toList ++ '\x7d' :: rest)).map
        fun read => (object read.1, read.2) := by
  obtain ⟨⟨key, value⟩, members, rfl⟩ := List.exists_cons_of_ne_nil hne
  obtain ⟨ds, hmembers⟩ : ∃ ds, (renderMembers ((key, value) :: members)).toList = '"' :: ds := by
    cases members <;> simp [renderMembers, renderText?, toList_renderText]
  have htext : (object ((key, value) :: members)).render.toList ++ rest =
      '\x7b' :: '"' :: (ds ++ '\x7d' :: rest) := by
    simp [render, hmembers]
  rw [htext, hmembers, value?, skipBlanks_cons (by decide)]
  rfl

theorem keyword?_append (text : String) (rest : List Char) :
    keyword? text (text.toList ++ rest) = some rest := by
  simp [keyword?, ← String.length_toList]

theorem members?_last (key : String) {fuel : Nat} {value : Json} {cs rest : List Char}
    (hread : value? fuel cs = some (value, '\x7d' :: rest)) :
    members? (fuel + 1) ((renderText key).toList ++ ':' :: cs) =
      some ([(some key, value)], rest) := by
  rw [toList_renderText, List.cons_append, members?, skipBlanks_cons (by decide),
    List.append_assoc]
  simp [textAfter?_escaped, skipBlanks_cons, isBlank, hread]

theorem members?_more (key : String) {fuel : Nat} {value : Json} {cs more rest : List Char}
    {members : List (Option String × Json)} (hread : value? fuel cs = some (value, ',' :: more))
    (hmore : members? fuel more = some (members, rest)) :
    members? (fuel + 1) ((renderText key).toList ++ ':' :: cs) =
      some ((some key, value) :: members, rest) := by
  rw [toList_renderText, List.cons_append, members?, skipBlanks_cons (by decide),
    List.append_assoc]
  simp [textAfter?_escaped, skipBlanks_cons, isBlank, hread, hmore]

mutual

/-- Each reader recurses on a part of the text, so the length of the text is fuel enough. -/
theorem value?_render (json : Json) (h : json.WellFormed) (fuel : Nat) (rest : List Char)
    (hfuel : json.render.toList.length ≤ fuel) (hrest : EndsNumber rest) :
    value? fuel (json.render.toList ++ rest) = some (json, rest) := by
  obtain ⟨fuel, rfl⟩ : ∃ n, fuel = n + 1 := by
    obtain ⟨c, hhead, -, -⟩ := head?_render h
    obtain ⟨cs, heq⟩ := List.head?_eq_some_iff.1 hhead
    exact ⟨fuel - 1, by rw [heq, List.length_cons] at hfuel; omega⟩
  match json with
  | null =>
    have hword := keyword?_append "ull" rest
    simp_all [render, value?, skipBlanks_cons, isBlank]
  | bool false =>
    have hword := keyword?_append "alse" rest
    simp_all [render, value?, skipBlanks_cons, isBlank]
  | bool true =>
    have hword := keyword?_append "rue" rest
    simp_all [render, value?, skipBlanks_cons, isBlank]
  | number n =>
    rw [render]
    exact value?_numeral (by simpa [WellFormed] using h) hrest fuel
  | string text =>
    obtain ⟨text, rfl⟩ := Option.isSome_iff_exists.1 (by simpa [WellFormed] using h)
    rw [render, renderText?, Option.getD_some, toList_renderText, value?, List.cons_append,
      skipBlanks_cons (by decide), List.append_assoc]
    simp [textAfter?_escaped]
  | array items =>
    by_cases hne : items = []
    · subst hne
      simp [render, renderItems, value?, skipBlanks_cons, isBlank]
    · have hread := items?_render items hne (by simpa [WellFormed] using h) fuel rest (by
        simp [render] at hfuel
        omega)
      rw [value?_array hne h, hread]
      rfl
  | object members =>
    by_cases hne : members = []
    · subst hne
      simp [render, renderMembers, value?, skipBlanks_cons, isBlank]
    · have hread := members?_render members hne (by simpa [WellFormed] using h) fuel rest (by
        simp [render] at hfuel
        omega)
      rw [value?_object hne, hread]
      rfl

theorem items?_render (items : List Json) (hne : items ≠ []) (h : ItemsWellFormed items)
    (fuel : Nat) (rest : List Char) (hfuel : (renderItems items).toList.length + 1 ≤ fuel) :
    items? fuel ((renderItems items).toList ++ ']' :: rest) = some (items, rest) := by
  obtain ⟨fuel, rfl⟩ : ∃ n, fuel = n + 1 := ⟨fuel - 1, by omega⟩
  match items with
  | [item] =>
    rw [ItemsWellFormed] at h
    have hread := value?_render item h.1 fuel (']' :: rest)
      (by simpa [renderItems] using hfuel) (by simp [EndsNumber, Numeral.isDigit])
    rw [renderItems, items?, hread]
    simp [skipBlanks_cons, isBlank]
  | item :: second :: items =>
    rw [ItemsWellFormed] at h
    have hlength : (renderItems (item :: second :: items)).toList.length =
        item.render.toList.length + 1 + (renderItems (second :: items)).toList.length := by
      simp [renderItems]
      omega
    have hread := value?_render item h.1 fuel
      (',' :: ((renderItems (second :: items)).toList ++ ']' :: rest))
      (by omega) (by simp [EndsNumber, Numeral.isDigit])
    have hreads := items?_render (second :: items) (by simp) h.2 fuel rest (by omega)
    have htext : (renderItems (item :: second :: items)).toList ++ ']' :: rest =
        item.render.toList ++ ',' :: ((renderItems (second :: items)).toList ++ ']' :: rest) := by
      simp [renderItems]
    rw [htext, items?, hread]
    simp [skipBlanks_cons, isBlank, hreads]

theorem members?_render (members : List (Option String × Json)) (hne : members ≠ [])
    (h : MembersWellFormed members) (fuel : Nat) (rest : List Char)
    (hfuel : (renderMembers members).toList.length + 1 ≤ fuel) :
    members? fuel ((renderMembers members).toList ++ '\x7d' :: rest) = some (members, rest) := by
  obtain ⟨fuel, rfl⟩ : ∃ n, fuel = n + 1 := ⟨fuel - 1, by omega⟩
  rcases members with _ | ⟨⟨key, value⟩, _ | ⟨second, members⟩⟩
  · exact absurd rfl hne
  · rw [MembersWellFormed] at h
    obtain ⟨key, rfl⟩ := Option.isSome_iff_exists.1 h.1
    have hread := value?_render value h.2.1 fuel ('\x7d' :: rest)
      (by simp [renderMembers] at hfuel; omega) (by simp [EndsNumber, Numeral.isDigit])
    have htext : (renderMembers [(some key, value)]).toList ++ '\x7d' :: rest =
        (renderText key).toList ++ ':' :: (value.render.toList ++ '\x7d' :: rest) := by
      simp [renderMembers, renderText?]
    rw [htext]
    exact members?_last key hread
  · rw [MembersWellFormed] at h
    obtain ⟨key, rfl⟩ := Option.isSome_iff_exists.1 h.1
    have hlength : (renderMembers ((some key, value) :: second :: members)).toList.length =
        (renderText key).toList.length + 1 + value.render.toList.length + 1 +
          (renderMembers (second :: members)).toList.length := by
      simp [renderMembers, renderText?]
      omega
    have hread := value?_render value h.2.1 fuel
      (',' :: ((renderMembers (second :: members)).toList ++ '\x7d' :: rest))
      (by omega) (by simp [EndsNumber, Numeral.isDigit])
    have hreads := members?_render (second :: members) (by simp) h.2.2 fuel rest (by omega)
    have htext : (renderMembers ((some key, value) :: second :: members)).toList ++ '\x7d' :: rest =
        (renderText key).toList ++ ':' :: (value.render.toList ++
          ',' :: ((renderMembers (second :: members)).toList ++ '\x7d' :: rest)) := by
      simp [renderMembers, renderText?]
    rw [htext]
    exact members?_more key hread hreads

end

/-- Reading a written value gives it back. -/
theorem parse?_render {json : Json} (h : json.WellFormed) :
    parse? json.render.toList = some json := by
  have hread := value?_render json h (2 * json.render.toList.length + 2) [] (by omega) rfl
  rw [List.append_nil] at hread
  simp [parse?, hread, skipBlanks]

end Json

end CircuitScript
