import CircuitScript.Proofs.ScratchPool
import CircuitScript.Script.Cursor
import Mathlib.Data.List.Induction
import Mathlib.Logic.Relation
/-!
How a cursor moves. Every read skips runs of characters and takes single ones; where it fails, its
error has a place that the cursor came by. So a place is always that behind some front part of the
text, and no read ends inside a word of digits.
-/
namespace CircuitScript

variable {α β : Type}

/-- Lines are counted by line feeds, and columns from the last one. -/
theorem Location.foldl_after (text : List Char) :
    text.foldl Location.after ⟨1, 1⟩ =
      ⟨1 + text.count '\n', 1 + (text.reverse.takeWhile (· != '\n')).length⟩ := by
  induction text using List.reverseRecOn with
  | nil => rfl
  | append_singleton text c ih =>
    rw [List.foldl_append, ih, List.foldl_cons, List.foldl_nil, Location.after, List.count_append,
      List.reverse_append]
    by_cases hc : c = '\n'
    · simp [hc, Nat.add_assoc]
    · simp [hc, Nat.add_comm]

/-- The place of a fault of a script, if it is known. -/
def Error.place? : Error → Option Location
  | .syntactic _ place | .structural _ place | .exhausted _ place => place
  | _ => none

/-- Letters, digits and the underscore lie between the digit zero and the letter z. -/
theorem toNat_of_isWordChar {c : Char} (h : Cursor.isWordChar c = true) :
    48 ≤ c.toNat ∧ c.toNat ≤ 122 := by
  delta Cursor.isWordChar Char.isAlphanum Char.isAlpha Char.isUpper Char.isLower Char.isDigit at h
  simp only [Bool.or_eq_true, Bool.and_eq_true, decide_eq_true_eq, beq_iff_eq,
    UInt32.le_iff_toNat_le, ge_iff_le] at h
  rcases h with (h | rfl) | rfl
  · have hbounds : 'A'.val.toNat = 65 ∧ 'Z'.val.toNat = 90 ∧ 'a'.val.toNat = 97 ∧
        'z'.val.toNat = 122 ∧ '0'.val.toNat = 48 ∧ '9'.val.toNat = 57 := by decide
    have hval : c.toNat = c.val.toNat := rfl
    omega
  · decide
  · decide

theorem isBlank_of_isWordChar {c : Char} (h : Cursor.isWordChar c = true) :
    Text.isBlank c = false := by
  have hrange := toNat_of_isWordChar h
  simp only [Text.isBlank, Text.inRanges, Text.blankRanges, List.any_cons, List.any_nil,
    Bool.or_false, Bool.or_eq_false_iff, Bool.and_eq_false_imp, decide_eq_true_eq,
    decide_eq_false_iff_not, Nat.not_le]
  omega

namespace Cursor

variable {single : Char → Bool} {origin cursor after : Cursor} {p : Char → Bool}

/-- A run of the class does not end inside a word of digits: it holds no character of a word, or
every digit. -/
def EndsWords (p : Char → Bool) : Prop :=
  (∀ c, p c = true → isWordChar c = false) ∨ ∀ c, c.isDigit = true → p c = true

/-- A run of characters is skipped, or a single one is taken. -/
inductive Move (single : Char → Bool) : Cursor → Cursor → Prop
  | skip {cursor : Cursor} {p : Char → Bool} (h : EndsWords p) :
      Move single cursor (cursor.skipWhile p)
  | take {c : Char} {rest : List Char} {location : Location} (h : single c = true) :
      Move single ⟨c :: rest, location⟩ ⟨rest, location.after c⟩

abbrev Moves (single : Char → Bool) : Cursor → Cursor → Prop := Relation.ReflTransGen (Move single)

/-- The place is one that the cursor moves to. -/
def Visits (single : Char → Bool) (origin : Cursor) (place : Location) : Prop :=
  ∃ cursor, Moves single origin cursor ∧ place = cursor.location

/-- What a cursor has moved over is the front of what was left, and its place is the one behind
that. -/
theorem Moves.exists_taken (h : Moves single origin cursor) :
    ∃ taken, origin.rest = taken ++ cursor.rest ∧
      cursor.location = taken.foldl Location.after origin.location := by
  induction h with
  | refl => exact ⟨[], rfl, rfl⟩
  | @tail middle _ _ hmove ih =>
    obtain ⟨taken, hrest, hplace⟩ := ih
    cases hmove with
    | @skip _ p =>
      refine ⟨taken ++ middle.rest.takeWhile p, ?_, ?_⟩
      · rw [hrest, List.append_assoc, skipWhile, List.takeWhile_append_dropWhile]
      · rw [List.foldl_append, ← hplace]
        rfl
    | @take c rest location =>
      refine ⟨taken ++ [c], by rw [hrest, List.append_assoc]; rfl, ?_⟩
      rw [List.foldl_append, ← hplace]
      rfl

/-- A cursor never goes back. -/
theorem Moves.length_le (h : Moves single origin cursor) :
    cursor.rest.length ≤ origin.rest.length := by
  obtain ⟨taken, hrest, -⟩ := h.exists_taken
  rw [hrest, List.length_append]
  omega

theorem endsWords_isBlank : EndsWords Text.isBlank := by
  refine .inl fun c hblank => Bool.eq_false_iff.mpr fun hword => ?_
  rw [isBlank_of_isWordChar hword] at hblank
  cases hblank

theorem isWordChar_of_isDigit {c : Char} (h : c.isDigit = true) : isWordChar c = true := by
  simp [isWordChar, Char.isAlphanum, h]

theorem endsWords_isWordChar : EndsWords isWordChar := .inr fun _ => isWordChar_of_isDigit

/-- Expressions hold words whole: a run of their characters does not stop at a digit. -/
theorem endsWords_isExpressionChar {logic : Bool} : EndsWords (isExpressionChar logic) := by
  refine .inr fun c hdigit => ?_
  simp [isExpressionChar, Char.isAlphanum, hdigit]

theorem endsWords_separator : EndsWords fun c => Text.isBlank c || c == ';' := by
  refine .inl fun c hseparates => Bool.eq_false_iff.mpr fun hword => ?_
  dsimp only at hseparates
  rw [isBlank_of_isWordChar hword, Bool.false_or, beq_iff_eq] at hseparates
  subst hseparates
  cases hword

/-- A run ends before a character of another class. -/
theorem head?_dropWhile {p : Char → Bool} {text : List Char} {c : Char}
    (h : c ∈ (text.dropWhile p).head?) : p c = false := by
  have hnot := List.head?_dropWhile_not p text
  rw [Option.mem_def.mp h] at hnot
  exact hnot

/-- The word that comes next; empty if none does. -/
def nextWord (cursor : Cursor) : List Char := cursor.skipBlanks.rest.takeWhile isWordChar

/-- Where the reader stands once it has read that word. -/
def pastWord (cursor : Cursor) : Cursor := cursor.skipBlanks.skipWhile isWordChar

end Cursor

open Cursor (Moves Visits)

/-- The error has a place that the cursor moves to. -/
def Error.PlacedFrom (single : Char → Bool) (origin : Cursor) (error : Error) : Prop :=
  ∃ place, error.place? = some place ∧ Visits single origin place

namespace Scan

variable {single : Char → Bool} {origin : Cursor} {Q : α → Prop} {cursor after : Cursor}

/-- Reads one after another; a failure leaves the cursor where it arose. -/
theorem runOn_bind (scan : Scan α) (next : α → Scan β) :
    (scan >>= next).runOn cursor =
      match scan.runOn cursor with
      | (.ok a, after) => (next a).runOn after
      | (.error error, after) => (.error error, after) := by
  rw [runOn, run_bind_outcome, runOn]
  rcases scan.run cursor with ⟨_ | _, _⟩ <;> rfl

theorem runOn_pure (a : α) : (pure a : Scan α).runOn cursor = (.ok a, cursor) := rfl

theorem runOn_get : (get : Scan Cursor).runOn cursor = (.ok cursor, cursor) := rfl

theorem runOn_skipBlanks : skipBlanks.runOn cursor = (.ok (), cursor.skipBlanks) := rfl

theorem runOn_takeWhile {p : Char → Bool} :
    (takeWhile p).runOn cursor = (.ok (cursor.rest.takeWhile p), cursor.skipWhile p) := rfl

theorem runOn_failHere {fault : String → SyntaxFault} :
    (failHere fault : Scan α).runOn cursor =
      (.error (.syntactic (fault cursor.snippet) (some cursor.location)), cursor) := rfl

/-- If no word comes next, that is reported where the blanks end. -/
theorem runOn_rawWord_of_nil (h : cursor.nextWord = []) :
    rawWord.runOn cursor =
      (.error (.syntactic (.keywordExpected cursor.pastWord.snippet)
        (some cursor.pastWord.location)), cursor.pastWord) := by
  simp only [rawWord, runOn_bind, runOn_skipBlanks, runOn_get, runOn_takeWhile]
  rw [← Cursor.nextWord, if_pos (List.isEmpty_iff.mpr h), runOn_bind, runOn_failHere]
  rfl

theorem runOn_rawWord_of_ne (h : cursor.nextWord ≠ []) :
    rawWord.runOn cursor =
      (.ok (cursor.nextWord, cursor.skipBlanks.location), cursor.pastWord) := by
  simp only [rawWord, runOn_bind, runOn_skipBlanks, runOn_get, runOn_takeWhile]
  rw [← Cursor.nextWord, if_neg (fun hempty => h (List.isEmpty_iff.mp hempty)), runOn_pure]
  rfl

/-- A word holds a character. -/
theorem length_lt_of_rawWord {result : List Char × Location}
    (h : rawWord.runOn cursor = (.ok result, after)) : after.rest.length < cursor.rest.length := by
  by_cases hnil : cursor.nextWord = []
  · rw [runOn_rawWord_of_nil hnil] at h
    cases h
  · rw [runOn_rawWord_of_ne hnil] at h
    cases h
    have hskip : cursor.skipBlanks.rest.length ≤ cursor.rest.length :=
      (List.dropWhile_suffix _).length_le
    have hsplit : cursor.nextWord.length + cursor.pastWord.rest.length =
        cursor.skipBlanks.rest.length := by
      rw [← List.length_append, Cursor.nextWord, Cursor.pastWord, Cursor.skipWhile,
        List.takeWhile_append_dropWhile]
    have hpos := List.length_pos_iff.mpr hnil
    omega

/-- A name is a word, so it takes a character. -/
theorem length_lt_of_name {text : String} (h : name.runOn cursor = (.ok text, after)) :
    after.rest.length < cursor.rest.length := by
  rw [name, runOn_bind] at h
  split at h
  · next hraw =>
    dsimp only at h
    split at h
    · cases h
    · cases h
      exact length_lt_of_rawWord hraw
  · cases h

/-- The next character is taken if it is one of the set; else only blanks are skipped. -/
theorem exists_runOn_eatOne (set : List Char) (cursor : Cursor) :
    ∃ found after, (eatOne set).runOn cursor = (.ok found, after) ∧
      (found = none ∧ (∀ c ∈ cursor.skipBlanks.rest.head?, c ∉ set) ∧ after = cursor.skipBlanks ∨
        ∃ c ∈ set, ∃ rest, cursor.skipBlanks.rest = c :: rest ∧ found = some c ∧
          after = ⟨rest, cursor.skipBlanks.location.after c⟩) := by
  simp only [eatOne, runOn_bind, runOn_skipBlanks, runOn_get]
  split
  · next c rest hrest =>
    split
    · next hset =>
      exact ⟨some c, _, rfl, .inr ⟨c, List.contains_iff_mem.mp hset, rest, hrest, rfl, rfl⟩⟩
    · next hset =>
      refine ⟨none, _, rfl, .inl ⟨rfl, fun d hd hmem => hset ?_, rfl⟩⟩
      rw [hrest, List.head?_cons, Option.mem_some_iff] at hd
      exact List.contains_iff_mem.mpr (hd ▸ hmem)
  · next hrest => exact ⟨none, _, rfl, .inl ⟨rfl, by simp [hrest], rfl⟩⟩

/-- A character that is found is taken. -/
theorem length_lt_of_eat {c : Char} (h : (eat c).runOn cursor = (.ok true, after)) :
    after.rest.length < cursor.rest.length := by
  obtain ⟨found, middle, hrun, hfound⟩ := exists_runOn_eatOne [c] cursor
  rw [eat, runOn_bind, hrun] at h
  rcases hfound with ⟨rfl, -, rfl⟩ | ⟨d, -, rest, hrest, rfl, rfl⟩
  · cases h
  · cases h
    have hskip : cursor.skipBlanks.rest.length ≤ cursor.rest.length :=
      (List.dropWhile_suffix _).length_le
    rw [hrest, List.length_cons] at hskip
    exact hskip

/-- Begun where the cursor moves to from `origin`, the read moves on, and what it gives has the
property. If it fails, the error has a place that the cursor moves to. -/
abbrev Walks (single : Char → Bool) (origin : Cursor) (scan : Scan α) (Q : α → Prop) : Prop :=
  Travels (Moves single origin) (Cursor.Move single) (fun cursor => cursor)
    (Error.PlacedFrom single origin) scan Q

/-- To skip a run that ends no word in its middle is one move. -/
theorem walks_skip {p : Char → Bool} (h : Cursor.EndsWords p) :
    Walks single origin (modify fun cursor => cursor.skipWhile p) fun _ => True where
  ok := by
    rintro cursor after b hc ⟨⟩
    exact ⟨.single (.skip h), hc.tail (.skip h), trivial⟩
  error := by
    rintro cursor error hc ⟨⟩

theorem walks_skipBlanks : Walks single origin skipBlanks fun _ => True :=
  walks_skip Cursor.endsWords_isBlank

theorem walks_skipSeparators : Walks single origin skipSeparators fun _ => True :=
  walks_skip Cursor.endsWords_separator

/-- A failure is placed where the cursor stands, and it has moved there. -/
theorem walks_failHere {fault : String → SyntaxFault} : Walks single origin (failHere fault) Q :=
  .bind .get fun cursor hc => .throw ⟨cursor.location, rfl, cursor, hc, rfl⟩

/-- A longest run, from a place that the cursor moves to. -/
def RunFrom (single : Char → Bool) (origin : Cursor) (p : Char → Bool) (run : List Char) : Prop :=
  ∃ start, Moves single origin start ∧ run = start.rest.takeWhile p

theorem walks_takeWhile {p : Char → Bool} (h : Cursor.EndsWords p) :
    Walks single origin (takeWhile p) (RunFrom single origin p) where
  ok := by
    rintro cursor after run hc ⟨⟩
    exact ⟨.single (.skip h), hc.tail (.skip h), cursor, hc, rfl⟩
  error := by
    rintro cursor error hc ⟨⟩

/-- Where a read cannot go on, it fails. -/
theorem walks_unless {condition : Prop} [Decidable condition] {fault : String → SyntaxFault} {a : α}
    (h : ¬ condition → Q a) :
    Walks single origin (do
      if condition then failHere fault
      Pure.pure a) Q := by
  by_cases hc : condition
  · rw [if_pos hc]
    exact .bind (Q := fun _ => False) walks_failHere fun _ hf => hf.elim
  · rw [if_neg hc]
    exact .pure (h hc)

theorem walks_rawWord :
    Walks single origin rawWord fun result => RunFrom single origin Cursor.isWordChar result.1 ∧
      result.1 ≠ [] ∧ Visits single origin result.2 := by
  refine .bind walks_skipBlanks fun _ _ => .bind .get fun start hs => ?_
  refine .bind (walks_takeWhile Cursor.endsWords_isWordChar) fun word hw => ?_
  refine walks_unless fun hne => ?_
  exact ⟨hw, fun hnil => hne (List.isEmpty_iff.mpr hnil), start, hs, rfl⟩

/-- A name that is read somewhere: a word that is no number. -/
def NameFrom (single : Char → Bool) (origin : Cursor) (name : String) : Prop :=
  ∃ chars, RunFrom single origin Cursor.isWordChar chars ∧ chars ≠ [] ∧ Word.number? chars = none ∧
    name = String.ofList chars

/-- A word of digits is no name, and is reported where the word begins. -/
theorem walks_name : Walks single origin name (NameFrom single origin) := by
  refine .bind walks_rawWord ?_
  rintro ⟨chars, place⟩ ⟨hrun, hne, hplace⟩
  dsimp only
  split
  · exact .throw ⟨place, rfl, hplace⟩
  · next hnumber => exact .pure ⟨chars, hrun, hne, hnumber, rfl⟩

theorem walks_word :
    Walks single origin word fun word =>
      ∀ text, word = .name text → NameFrom single origin text := by
  refine .bind walks_rawWord ?_
  rintro ⟨chars, place⟩ ⟨hrun, hne, -⟩
  dsimp only
  split
  · exact .pure fun text h => by cases h
  · next hnumber =>
    refine .pure fun text h => ?_
    cases h
    exact ⟨chars, hrun, hne, hnumber, rfl⟩

/-- The place of an expression is that of its first character. -/
theorem walks_expression {logic : Bool} :
    Walks single origin (expression logic) fun result => Visits single origin result.2 := by
  refine .bind walks_skipBlanks fun _ _ => .bind .get fun start hs => ?_
  refine .bind (walks_takeWhile Cursor.endsWords_isExpressionChar) fun raw _ => ?_
  exact walks_unless fun _ => ⟨start, hs, rfl⟩

/-- To look for a character is to skip the blanks and, if it comes next, to take it. -/
theorem walks_eatOne {set : List Char} (h : ∀ c ∈ set, single c = true) :
    Walks single origin (eatOne set) fun _ => True where
  ok := by
    intro cursor after found hc hrun
    obtain ⟨_, _, hfound, hcases⟩ := exists_runOn_eatOne set cursor
    cases hfound.symm.trans (outcome_eq_ok_iff.mp hrun)
    have hskip : Cursor.Move single cursor cursor.skipBlanks := .skip Cursor.endsWords_isBlank
    have hmoves : Moves single cursor after := by
      rcases hcases with ⟨-, -, rfl⟩ | ⟨c, hset, rest, hrest, -, rfl⟩
      · exact .single hskip
      · refine .head hskip (.single ?_)
        rw [show cursor.skipBlanks = ⟨c :: rest, cursor.skipBlanks.location⟩ from hrest ▸ rfl]
        exact .take (h c hset)
    exact ⟨hmoves, hc.trans hmoves, trivial⟩
  error := by
    intro cursor error hc hrun
    obtain ⟨_, _, hfound, -⟩ := exists_runOn_eatOne set cursor
    obtain ⟨_, hfail⟩ := outcome_eq_error_iff.mp hrun
    cases hfound.symm.trans hfail

theorem walks_eat {c : Char} (h : single c = true) :
    Walks single origin (eat c) fun _ => True := by
  refine .bind (walks_eatOne fun d hd => ?_) fun _ _ => .pure trivial
  rwa [List.mem_singleton.mp hd]

theorem walks_expect {c : Char} (h : single c = true) :
    Walks single origin (expect c) fun _ => True := by
  refine .bind (walks_eat h) fun found _ => ?_
  split
  · exact .pure trivial
  · exact walks_failHere

theorem walks_expectOne {set : List Char} (h : ∀ c ∈ set, single c = true) :
    Walks single origin (expectOne set) fun _ => True := by
  refine .bind (walks_eatOne h) fun found _ => ?_
  split
  · exact .pure trivial
  · exact walks_failHere

end Scan

end CircuitScript
