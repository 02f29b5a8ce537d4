import CircuitScript.Proofs.ErrorPlace
import Mathlib.Algebra.Group.Nat.Defs
/-!
Numbers and names. A word of digits is a number as long as it fits 32 bits with a sign; a longer one
is taken for a name, silently. So a name of digits in a program is a word of its text as a whole,
and one that is out of range; no other way leads there.
-/
namespace CircuitScript

variable {chars : List Char} {source : List Char} {cursor : Cursor}
  {location : Location}

/-- The word is made of decimal digits. -/
def IsNumeral (word : List Char) : Prop := word ≠ [] ∧ word.all Char.isDigit = true

instance : Decidable (IsNumeral chars) := inferInstanceAs (Decidable (_ ∧ _))

/-- What a word of digits stands for. -/
abbrev numeralValue (word : List Char) : Nat := Nat.ofDigitChars 10 word 0

theorem Word.number?_of_lt (h : IsNumeral chars) (hlt : numeralValue chars < 2 ^ 31) :
    Word.number? chars = some (Int32.ofNat (numeralValue chars)) := by
  rw [Word.number?, if_pos h.2]
  exact if_pos hlt

theorem Word.number?_of_le (h : IsNumeral chars → 2 ^ 31 ≤ numeralValue chars) (hne : chars ≠ []) :
    Word.number? chars = none := by
  rw [Word.number?]
  split
  · next hdigits => exact if_neg (Nat.not_lt.mpr (h ⟨hne, hdigits⟩))
  · rfl

theorem Word.le_of_number?_eq_none (h : Word.number? chars = none) (hn : IsNumeral chars) :
    2 ^ 31 ≤ numeralValue chars := by
  by_cases hlt : numeralValue chars < 2 ^ 31
  · rw [Word.number?_of_lt hn hlt] at h
    cases h
  · exact Nat.not_lt.mp hlt

namespace Scan

/-- The next word is a number. -/
theorem runOn_of_lt (h : IsNumeral cursor.nextWord) (hlt : numeralValue cursor.nextWord < 2 ^ 31) :
    word.runOn cursor =
        (.ok (.number (Int32.ofNat (numeralValue cursor.nextWord))), cursor.pastWord) ∧
      name.runOn cursor = (.error (.syntactic (.digitsAsName (String.ofList cursor.nextWord))
        (some cursor.skipBlanks.location)), cursor.pastWord) := by
  have hnumber := Word.number?_of_lt h hlt
  constructor
  · rw [word, runOn_bind, runOn_rawWord_of_ne h.1]
    dsimp only
    rw [hnumber, runOn_pure]
  · rw [name, runOn_bind, runOn_rawWord_of_ne h.1]
    dsimp only
    rw [hnumber]
    rfl

/-- The next word is a name. -/
theorem runOn_of_le (hne : cursor.nextWord ≠ [])
    (h : IsNumeral cursor.nextWord → 2 ^ 31 ≤ numeralValue cursor.nextWord) :
    word.runOn cursor = (.ok (.name (String.ofList cursor.nextWord)), cursor.pastWord) ∧
      name.runOn cursor = (.ok (String.ofList cursor.nextWord), cursor.pastWord) := by
  have hnumber := Word.number?_of_le h hne
  constructor
  · rw [word, runOn_bind, runOn_rawWord_of_ne hne]
    dsimp only
    rw [hnumber, runOn_pure]
  · rw [name, runOn_bind, runOn_rawWord_of_ne hne]
    dsimp only
    rw [hnumber, runOn_pure]

/-- There is no next word. -/
theorem runOn_of_nil (h : cursor.nextWord = []) :
    ∃ error, word.runOn cursor = (.error error, cursor.pastWord) ∧
      name.runOn cursor = (.error error, cursor.pastWord) := by
  have hraw := runOn_rawWord_of_nil h
  exact ⟨_, by rw [word, runOn_bind, hraw], by rw [name, runOn_bind, hraw]⟩

/-- Every word is a number within range or a name. -/
theorem nextWord_cases (cursor : Cursor) :
    cursor.nextWord = [] ∨
      IsNumeral cursor.nextWord ∧ numeralValue cursor.nextWord < 2 ^ 31 ∨
      cursor.nextWord ≠ [] ∧
        (IsNumeral cursor.nextWord → 2 ^ 31 ≤ numeralValue cursor.nextWord) := by
  by_cases hne : cursor.nextWord = []
  · exact .inl hne
  · by_cases hnumber : IsNumeral cursor.nextWord ∧ numeralValue cursor.nextWord < 2 ^ 31
    · exact .inr (.inl hnumber)
    · exact .inr (.inr ⟨hne, fun hn => Nat.not_lt.mp fun hlt => hnumber ⟨hn, hlt⟩⟩)

theorem word_eq_name_iff {text : String} :
    (word.runOn cursor).1 = .ok (.name text) ↔
      text.toList = cursor.nextWord ∧ cursor.nextWord ≠ [] ∧
        (IsNumeral cursor.nextWord → 2 ^ 31 ≤ numeralValue cursor.nextWord) := by
  rcases nextWord_cases cursor with hnil | ⟨hn, hlt⟩ | ⟨hne, hle⟩
  · obtain ⟨error, hword, -⟩ := runOn_of_nil hnil
    simp [hword, hnil]
  · rw [(runOn_of_lt hn hlt).1]
    constructor
    · rintro ⟨⟩
    · rintro ⟨-, -, hle⟩
      exact absurd hlt (Nat.not_lt.mpr (hle hn))
  · rw [(runOn_of_le hne hle).1]
    constructor
    · rintro ⟨⟩
      exact ⟨String.toList_ofList, hne, hle⟩
    · rintro ⟨htext, -⟩
      rw [← htext, String.ofList_toList]

theorem word_eq_number_iff {value : Int32} :
    (word.runOn cursor).1 = .ok (.number value) ↔
      IsNumeral cursor.nextWord ∧ value.toInt = numeralValue cursor.nextWord := by
  have hrange := value.toInt_lt
  rcases nextWord_cases cursor with hnil | ⟨hn, hlt⟩ | ⟨hne, hle⟩
  · obtain ⟨error, hword, -⟩ := runOn_of_nil hnil
    simp [hword, hnil, IsNumeral]
  · have hvalue := Int32.toInt_ofNat_of_lt hlt
    rw [(runOn_of_lt hn hlt).1]
    constructor
    · rintro ⟨⟩
      exact ⟨hn, hvalue⟩
    · rintro ⟨-, hv⟩
      rw [Int32.toInt_inj.mp (hv.trans hvalue.symm)]
  · rw [(runOn_of_le hne hle).1]
    constructor
    · rintro ⟨⟩
    · rintro ⟨hn, hv⟩
      have := hle hn
      omega

/-- Where no number may stand, the same words are names, and nothing else is read. -/
theorem name_eq_ok_iff {text : String} :
    (name.runOn cursor).1 = .ok text ↔ (word.runOn cursor).1 = .ok (.name text) := by
  rcases nextWord_cases cursor with hnil | ⟨hn, hlt⟩ | ⟨hne, hle⟩
  · obtain ⟨error, hword, hname⟩ := runOn_of_nil hnil
    simp [hword, hname]
  · obtain ⟨hword, hname⟩ := runOn_of_lt hn hlt
    simp [hword, hname]
  · obtain ⟨hword, hname⟩ := runOn_of_le hne hle
    simp [hword, hname]

end Scan

/-- The word stands in the text by itself: no character of a word is next to it. -/
def StandsIn (word text : List Char) : Prop :=
  ∃ before after, text = before ++ word ++ after ∧
    (∀ c ∈ before.getLast?, Cursor.isWordChar c = false) ∧
    ∀ c ∈ after.head?, Cursor.isWordChar c = false

namespace Cursor

/-- The reader does not stand inside a word before a digit. -/
def CutsClean (text : List Char) (cursor : Cursor) : Prop :=
  ∃ before, text = before ++ cursor.rest ∧
    ((∀ c ∈ before.getLast?, isWordChar c = false) ∨ ∀ c ∈ cursor.rest.head?, c.isDigit = false)

theorem getLast?_takeWhile {p : Char → Bool} {text : List Char} {c : Char}
    (h : c ∈ (text.takeWhile p).getLast?) : p c = true :=
  List.all_eq_true.mp List.all_takeWhile c (List.mem_of_getLast? h)

theorem CutsClean.move {after : Cursor} (h : cursor.CutsClean source)
    (hm : Move isMark cursor after) : after.CutsClean source := by
  obtain ⟨before, hsource, hcut⟩ := h
  cases hm with
  | @skip _ p hends =>
    have hsplit : source = (before ++ cursor.rest.takeWhile p) ++ (cursor.skipWhile p).rest := by
      rw [hsource, List.append_assoc, skipWhile, List.takeWhile_append_dropWhile]
    rcases hends with hnone | hdigits
    · by_cases hempty : cursor.rest.takeWhile p = []
      · refine ⟨before, by rw [hsplit, hempty, List.append_nil], ?_⟩
        have hstays : (cursor.skipWhile p).rest = cursor.rest := by
          have := cursor.rest.takeWhile_append_dropWhile (p := p)
          rwa [hempty, List.nil_append] at this
        rwa [hstays]
      · refine ⟨_, hsplit, .inl fun c hc => hnone c ?_⟩
        obtain ⟨last, hlast⟩ := Option.isSome_iff_exists.mp (List.getLast?_isSome.mpr hempty)
        rw [List.getLast?_append, hlast, Option.some_or, ← hlast] at hc
        exact getLast?_takeWhile hc
    · refine ⟨_, hsplit, .inr fun c hc => Bool.eq_false_iff.mpr fun hdigit => ?_⟩
      have hstop := head?_dropWhile hc
      rw [hdigits c hdigit] at hstop
      cases hstop
  | @take c rest location hmark =>
    refine ⟨before ++ [c], by simp [hsource], .inl fun d hd => ?_⟩
    rw [List.getLast?_concat] at hd
    cases hd
    simpa using hmark

theorem Moves.cutsClean (h : Moves isMark ⟨source, location⟩ cursor) : cursor.CutsClean source := by
  induction h with
  | refl => exact ⟨[], rfl, .inl (by simp)⟩
  | tail _ hmove ih => exact ih.move hmove

/-- A word of digits that is read somewhere stands there by itself: it was not cut off a longer
one. -/
theorem Moves.standsIn (h : Moves isMark ⟨source, location⟩ cursor)
    (hn : IsNumeral (cursor.rest.takeWhile isWordChar)) :
    StandsIn (cursor.rest.takeWhile isWordChar) source := by
  obtain ⟨before, hsource, hcut⟩ := h.cutsClean
  refine ⟨before, cursor.rest.dropWhile isWordChar, ?_, ?_, fun c hc => head?_dropWhile hc⟩
  · rw [hsource, List.append_assoc, List.takeWhile_append_dropWhile]
  · refine hcut.resolve_right fun hdigit => ?_
    obtain ⟨hne, hdigits⟩ := hn
    cases hrest : cursor.rest with
    | nil => simp [hrest] at hne
    | cons c rest =>
      have hword : isWordChar c = true := by
        cases hc : isWordChar c with
        | false => simp [hrest, hc] at hne
        | true => rfl
      have hfirst := List.all_eq_true.mp hdigits c (by simp [hrest, hword])
      rw [hdigit c (by simp [hrest])] at hfirst
      cases hfirst

end Cursor

/-- No identifier begins with a digit. -/
theorem isDigit_of_isWordStart {c : Char} (h : Formula.isWordStart c = true) :
    c.isDigit = false := by
  have hranges : Text.identifierStartRanges.all (fun range => 65 ≤ range.1) = true := by
    decide +kernel
  have hge : c = '$' ∨ 65 ≤ c.toNat := by
    simp only [Formula.isWordStart, Text.isIdentifierStart, Text.inRanges, Bool.or_eq_true,
      beq_iff_eq, List.any_eq_true, Bool.and_eq_true, decide_eq_true_eq] at h
    rcases h with (rfl | rfl) | ⟨range, hmem, hle, -⟩
    · exact .inl rfl
    · exact .inr (by decide)
    · exact .inr (Nat.le_trans (of_decide_eq_true (List.all_eq_true.mp hranges range hmem)) hle)
  rcases hge with rfl | hge
  · rfl
  · delta Char.isDigit
    simp only [Bool.and_eq_false_imp, decide_eq_true_eq, decide_eq_false_iff_not, ge_iff_le,
      UInt32.le_iff_toNat_le]
    intro _ hle
    have hval : c.toNat = c.val.toNat := rfl
    have hnine : '9'.val.toNat = 57 := by decide
    omega

/-- A name of digits is out of range, and the text spells it by itself. -/
def Outsized (source name : String) : Prop :=
  IsNumeral name.toList → 2 ^ 31 ≤ numeralValue name.toList ∧ StandsIn name.toList source.toList

theorem spelling_outsized (source : String) : Spelling (.ofText source) (Outsized source) where
  word := by
    rintro name ⟨_, ⟨start, hmoves, rfl⟩, -, hnumber, rfl⟩ hn
    rw [String.toList_ofList] at hn ⊢
    exact ⟨Word.le_of_number?_eq_none hnumber hn, hmoves.standsIn hn⟩
  formula := by
    rintro _ ⟨c, more, rfl, hstart, -⟩ hn
    rw [String.toList_ofList] at hn
    have hfirst := List.all_eq_true.mp hn.2 c List.mem_cons_self
    rw [isDigit_of_isWordStart hstart] at hfirst
    cases hfirst
  scratch := by
    intro name hname hn
    have hnone : scratchSignals.all (fun name => ¬ IsNumeral name.toList) = true := by
      decide +kernel
    exact absurd hn (of_decide_eq_true (List.all_eq_true.mp hnone name hname))
  each := fun hn => absurd hn (by decide)
  all := fun hn => absurd hn (by decide)

/-- The next word is a number exactly if it is one of digits and in range, and then with its value;
every other word is a name, a longer word of digits among them. A program has a name of digits only
where its text spells one that is out of range. -/
theorem numerals_read (cursor : Cursor) (source : String) :
    (∀ text, (Scan.word.runOn cursor).1 = .ok (.name text) ↔
      text.toList = cursor.nextWord ∧ cursor.nextWord ≠ [] ∧
        (IsNumeral cursor.nextWord → 2 ^ 31 ≤ numeralValue cursor.nextWord)) ∧
    (∀ value, (Scan.word.runOn cursor).1 = .ok (.number value) ↔
      IsNumeral cursor.nextWord ∧ value.toInt = numeralValue cursor.nextWord) ∧
    (∀ text, (Scan.name.runOn cursor).1 = .ok text ↔
      (Scan.word.runOn cursor).1 = .ok (.name text)) ∧
    ∀ script, Script.parse source = .ok script →
      script.Named fun name => IsNumeral name.toList →
        2 ^ 31 ≤ numeralValue name.toList ∧ StandsIn name.toList source.toList := by
  refine ⟨fun text => Scan.word_eq_name_iff, fun value => Scan.word_eq_number_iff,
    fun text => Scan.name_eq_ok_iff, fun script h => ?_⟩
  exact Script.named_of_parse (spelling_outsized source) h

/-- A step adds a number that fits to a name of digits that does not. -/
theorem numerals_read_sum :
    (Scan.word.runOn (.ofText "2147483647 + 2147483648")).1 = .ok (.number 2147483647) ∧
    ∃ script,
      Script.parse "chain \x7b parallel \x7b a = 2147483647 + 2147483648 \x7d \x7d" = .ok script ∧
      bodySteps ((script.body.flatMap Node.members).flatMap Node.members) =
        [⟨.constant 2147483647, .add, .signal "2147483648", "a"⟩] ∧
      script.Named fun name => IsNumeral name.toList →
        2 ^ 31 ≤ numeralValue name.toList ∧ StandsIn name.toList
          "chain \x7b parallel \x7b a = 2147483647 + 2147483648 \x7d \x7d".toList := by
  obtain ⟨-, hnumber, -, hnamed⟩ := numerals_read (.ofText "2147483647 + 2147483648")
    "chain \x7b parallel \x7b a = 2147483647 + 2147483648 \x7d \x7d"
  obtain ⟨script, hparse, hsteps⟩ : ∃ script,
      Script.parse "chain \x7b parallel \x7b a = 2147483647 + 2147483648 \x7d \x7d" = .ok script ∧
      bodySteps ((script.body.flatMap Node.members).flatMap Node.members) =
        [⟨.constant 2147483647, .add, .signal "2147483648", "a"⟩] :=
    Script.exists_parse (by decide +kernel)
  exact ⟨(hnumber _).mpr (by decide +kernel), script, hparse, hsteps, hnamed script hparse⟩

/-- So not every name has a character that is no digit: neither for a reader that wants a name, nor
in a program. -/
theorem numeral_taken_for_name :
    (Scan.name.runOn (.ofText "4294967296")).1 = .ok "4294967296" ∧
      ∃ script, Script.parse "chain \x7b parallel \x7b a = 4294967296 \x7d \x7d" = .ok script ∧
        bodySteps ((script.body.flatMap Node.members).flatMap Node.members) =
          [⟨.signal "4294967296", .add, .constant 0, "a"⟩] :=
  ⟨by decide +kernel, Script.exists_parse (by decide +kernel)⟩

end CircuitScript
