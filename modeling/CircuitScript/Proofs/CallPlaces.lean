import CircuitScript.Proofs.CursorMoves
/-!
Reads one after another, failed ones among them. Whatever was called, the text taken so far is a
front part of the source and the place is the one behind it. What a call takes is settled by the
text alone: first the longest run of blanks, then what it looks for; if that does not come next,
nothing more.
-/
namespace CircuitScript

variable {α β : Type}

/-- The place behind a text that begins a source. -/
def Location.behind (text : List Char) : Location :=
  ⟨1 + text.count '\n', 1 + (text.reverse.takeWhile (· != '\n')).length⟩

/-- `run` is the longest front part of a text that is made of characters of the class, and `rest`
is what comes after it. -/
structure LongestRun (p : Char → Bool) (text run rest : List Char) : Prop where
  split : text = run ++ rest
  all : ∀ c ∈ run, p c = true
  ends : ∀ c ∈ rest.head?, p c = false

theorem longestRun_takeWhile (p : Char → Bool) (text : List Char) :
    LongestRun p text (text.takeWhile p) (text.dropWhile p) where
  split := List.takeWhile_append_dropWhile.symm
  all := List.all_eq_true.mp List.all_takeWhile
  ends := fun _ => Cursor.head?_dropWhile

theorem LongestRun.eq_nil_iff {p : Char → Bool} {text run rest : List Char}
    (h : LongestRun p text run rest) : run = [] ↔ ∀ c ∈ text.head?, p c = false := by
  constructor
  · rintro rfl
    rw [h.split]
    exact h.ends
  · intro hnone
    cases run with
    | nil => rfl
    | cons c run =>
      have hfirst : c ∈ text.head? := by rw [h.split]; rfl
      cases (h.all c List.mem_cons_self).symm.trans (hnone c hfirst)

namespace Text

/-- `text` is `run` without the blanks at its end. -/
def Trims (run text : List Char) : Prop :=
  ∃ tail, run = text ++ tail ∧ (∀ c ∈ tail, isBlank c = true) ∧
    ∀ c ∈ text.getLast?, isBlank c = false

theorem trims_trimEnd (run : List Char) : Trims run (trimEnd run) := by
  have hback := longestRun_takeWhile isBlank run.reverse
  refine ⟨(run.reverse.takeWhile isBlank).reverse, ?_, fun c hc => ?_, fun c hc => ?_⟩
  · rw [trimEnd, ← List.reverse_append, ← hback.split, List.reverse_reverse]
  · exact hback.all c (List.mem_reverse.mp hc)
  · rw [trimEnd, List.getLast?_reverse] at hc
    exact hback.ends c hc

/-- A run that does not begin with a blank is not trimmed away. -/
theorem trimEnd_eq_nil_iff {run : List Char} (h : ∀ c ∈ run.head?, isBlank c = false) :
    trimEnd run = [] ↔ run = [] := by
  constructor
  · intro hnil
    obtain ⟨tail, hrun, hblank, -⟩ := trims_trimEnd run
    rw [hnil, List.nil_append] at hrun
    cases run with
    | nil => rfl
    | cons c run =>
      have hfirst : c ∈ tail := hrun ▸ List.mem_cons_self
      cases (hblank c hfirst).symm.trans (h c rfl)
  · rintro rfl
    rfl

end Text

namespace Cursor

variable {cursor middle after : Cursor} {text source taken : List Char}

/-- The cursor moves over `text`, character by character. -/
structure Passes (cursor : Cursor) (text : List Char) (after : Cursor) : Prop where
  rest : cursor.rest = text ++ after.rest
  location : after.location = text.foldl Location.after cursor.location

theorem passes_nil : cursor.Passes [] cursor := ⟨rfl, rfl⟩

theorem passes_skipWhile (p : Char → Bool) :
    cursor.Passes (cursor.rest.takeWhile p) (cursor.skipWhile p) :=
  ⟨List.takeWhile_append_dropWhile.symm, rfl⟩

/-- What was taken and what is left make up the source, and the place is right. -/
structure Stands (source taken : List Char) (cursor : Cursor) : Prop where
  text : source = taken ++ cursor.rest
  place : cursor.location = .behind taken

theorem stands_ofText (source : String) : Stands source.toList [] (.ofText source) := ⟨rfl, rfl⟩

theorem Stands.passes (h : Stands source taken cursor) (hp : cursor.Passes text after) :
    Stands source (taken ++ text) after where
  text := by rw [h.text, hp.rest, List.append_assoc]
  place := by
    have hplace : cursor.location = taken.foldl Location.after ⟨1, 1⟩ :=
      h.place.trans (Location.foldl_after taken).symm
    rw [hp.location, hplace, ← List.foldl_append]
    exact Location.foldl_after _

end Cursor

namespace Scan

open Cursor (Stands Passes)

variable {cursor : Cursor} {set : List Char} {logic : Bool}

/-- The error of a word that is missing. -/
def NoWord (outcome : Except Error α) : Prop :=
  ∃ snippet place, outcome = .error (.syntactic (.keywordExpected snippet) place)

/-- The reads that may be called. -/
inductive Call
  | word
  | name
  | expression (logic : Bool)
  | eat (c : Char)
  | expect (c : Char)
  | eatOne (set : List Char)
  | expectOne (set : List Char)
  | skipBlanks
  deriving DecidableEq, Repr, Inhabited

namespace Call

abbrev Result : Call → Type
  | word => Word
  | name => String
  | expression _ => String × Location
  | eat _ => Bool
  | expect _ | skipBlanks => Unit
  | eatOne _ => Option Char
  | expectOne _ => Char

def scan : (call : Call) → Scan call.Result
  | word => Scan.word
  | name => Scan.name
  | expression logic => Scan.expression logic
  | eat c => Scan.eat c
  | expect c => Scan.expect c
  | eatOne set => Scan.eatOne set
  | expectOne set => Scan.expectOne set
  | skipBlanks => Scan.skipBlanks

/-- The characters that a call looks for behind the blanks. -/
def wants : Call → Char → Bool
  | word | name => Cursor.isWordChar
  | expression logic => Cursor.isExpressionChar logic
  | eat c | expect c => [c].contains
  | eatOne set | expectOne set => set.contains
  | skipBlanks => fun _ => false

/-- What a call takes of a text that does not begin with a blank: a run, or a single character. -/
def extent (call : Call) (text : List Char) : List Char :=
  match call with
  | word | name | expression _ => text.takeWhile call.wants
  | _ => (text.head?.filter call.wants).toList

/-- The outcome says that what the call looks for did not come next. Skipping blanks looks for
nothing. -/
def FindsNothing : (call : Call) → Except Error call.Result → Prop
  | word, outcome | name, outcome => NoWord outcome
  | expression _, outcome | expect _, outcome | expectOne _, outcome =>
    ∃ error, outcome = .error error
  | eat _, outcome => outcome = .ok false
  | eatOne _, outcome => outcome = .ok none
  | skipBlanks, _ => True

theorem extent_eq_nil_iff {call : Call} {text : List Char} :
    call.extent text = [] ↔ ∀ c ∈ text.head?, call.wants c = false := by
  have hrun := (longestRun_takeWhile call.wants text).eq_nil_iff
  have hone : (text.head?.filter call.wants).toList = [] ↔
      ∀ c ∈ text.head?, call.wants c = false := by
    cases text.head? <;> simp [Option.filter]
  cases call with
  | word | name | expression _ => exact hrun
  | _ => exact hone

end Call

/-- A read of a word goes over the whole word, whatever is made of it. Only the missing word has its
error: a number is refused where a name must stand, but it is a word. -/
theorem takes_rawWord_bind {next : List Char × Location → Scan α}
    (h : ∀ result cursor, ∃ outcome, (next result).runOn cursor = (outcome, cursor) ∧
      ¬ NoWord outcome) :
    ((rawWord >>= next).runOn cursor).2 = cursor.pastWord ∧
      (NoWord ((rawWord >>= next).runOn cursor).1 ↔ cursor.nextWord = []) := by
  rw [runOn_bind]
  by_cases hnil : cursor.nextWord = []
  · rw [runOn_rawWord_of_nil hnil]
    exact ⟨rfl, iff_of_true ⟨_, _, rfl⟩ hnil⟩
  · obtain ⟨outcome, hrun, hword⟩ := h (cursor.nextWord, cursor.skipBlanks.location) cursor.pastWord
    rw [runOn_rawWord_of_ne hnil]
    dsimp only
    rw [hrun]
    exact ⟨rfl, iff_of_false hword hnil⟩

theorem takes_word : (word.runOn cursor).2 = cursor.pastWord ∧
    (NoWord (word.runOn cursor).1 ↔ cursor.nextWord = []) := by
  refine takes_rawWord_bind fun result cursor => ?_
  dsimp only
  split <;> exact ⟨_, rfl, by rintro ⟨_, _, ⟨⟩⟩⟩

theorem takes_name : (name.runOn cursor).2 = cursor.pastWord ∧
    (NoWord (name.runOn cursor).1 ↔ cursor.nextWord = []) := by
  refine takes_rawWord_bind fun result cursor => ?_
  dsimp only
  split <;> exact ⟨_, rfl, by rintro ⟨_, _, ⟨⟩⟩⟩

/-- The run of characters of an expression that comes next. -/
def nextRun (cursor : Cursor) (logic : Bool) : List Char :=
  cursor.skipBlanks.rest.takeWhile (Cursor.isExpressionChar logic)

/-- An expression may hold blanks, but not before its first character, so one that is there is not
trimmed away. -/
theorem trimEnd_nextRun : Text.trimEnd (nextRun cursor logic) = [] ↔ nextRun cursor logic = [] := by
  refine Text.trimEnd_eq_nil_iff fun c hc => ?_
  rw [nextRun, List.head?_takeWhile, Option.mem_def, Option.filter_eq_some_iff] at hc
  exact (longestRun_takeWhile Text.isBlank cursor.rest).ends c hc.1

theorem runOn_expression_of_nil (h : nextRun cursor logic = []) :
    ∃ error, (expression logic).runOn cursor =
      (.error error, cursor.skipBlanks.skipWhile (Cursor.isExpressionChar logic)) := by
  have htrim : (Text.trimEnd (nextRun cursor logic)).isEmpty = true :=
    List.isEmpty_iff.mpr (trimEnd_nextRun.mpr h)
  simp only [expression, runOn_bind, runOn_skipBlanks, runOn_get, runOn_takeWhile]
  rw [← nextRun, if_pos htrim, runOn_bind, runOn_failHere]
  exact ⟨_, rfl⟩

theorem runOn_expression_of_ne (h : nextRun cursor logic ≠ []) :
    (expression logic).runOn cursor =
      (.ok (String.ofList (Text.trimEnd (nextRun cursor logic)), cursor.skipBlanks.location),
        cursor.skipBlanks.skipWhile (Cursor.isExpressionChar logic)) := by
  have htrim : ¬ (Text.trimEnd (nextRun cursor logic)).isEmpty = true :=
    fun hempty => h (trimEnd_nextRun.mp (List.isEmpty_iff.mp hempty))
  simp only [expression, runOn_bind, runOn_skipBlanks, runOn_get, runOn_takeWhile]
  rw [← nextRun, if_neg htrim, runOn_pure]

/-- The character that comes next, if it is one of a set. -/
def nextOf (cursor : Cursor) (set : List Char) : Option Char :=
  cursor.skipBlanks.rest.head?.filter set.contains

theorem runOn_eatOne (set : List Char) (cursor : Cursor) :
    ∃ after, (eatOne set).runOn cursor = (.ok (nextOf cursor set), after) ∧
      cursor.skipBlanks.Passes (nextOf cursor set).toList after := by
  obtain ⟨found, after, hrun, ⟨rfl, hnone, rfl⟩ | ⟨c, hset, rest, hrest, rfl, rfl⟩⟩ :=
    exists_runOn_eatOne set cursor
  · have hnext : nextOf cursor set = none := by
      refine Option.filter_eq_none_iff.mpr fun c hc => ?_
      rw [List.contains_iff_mem]
      exact hnone c hc
    rw [hnext]
    exact ⟨_, hrun, Cursor.passes_nil⟩
  · have hnext : nextOf cursor set = some c := by
      rw [nextOf, hrest, List.head?_cons, Option.filter_some, if_pos (List.contains_iff_mem.mpr hset)]
    rw [hnext]
    exact ⟨_, hrun, hrest, rfl⟩

/-- The reads of a single character differ only in what they make of the character found, or of
none. -/
theorem takes_eatOne_bind {next : Option Char → Scan α} {Q : Except Error α → Prop}
    (hstill : ∀ found cursor, ((next found).runOn cursor).2 = cursor)
    (hnone : ∀ cursor, Q ((next none).runOn cursor).1)
    (hsome : ∀ c cursor, ¬ Q ((next (some c)).runOn cursor).1) :
    cursor.skipBlanks.Passes (nextOf cursor set).toList ((eatOne set >>= next).runOn cursor).2 ∧
      (Q ((eatOne set >>= next).runOn cursor).1 ↔ (nextOf cursor set).toList = []) := by
  obtain ⟨after, hrun, hpasses⟩ := runOn_eatOne set cursor
  rw [runOn_bind, hrun]
  dsimp only
  rw [hstill]
  refine ⟨hpasses, ?_⟩
  cases nextOf cursor set with
  | none => exact iff_of_true (hnone after) rfl
  | some c => exact iff_of_false (hsome c after) (List.cons_ne_nil c [])

/-- A call passes over the blanks and what it looks for, whether it succeeds or not; it finds
nothing exactly if there is nothing of that. -/
theorem Call.takes (call : Call) (cursor : Cursor) :
    cursor.skipBlanks.Passes (call.extent cursor.skipBlanks.rest) (call.scan.runOn cursor).2 ∧
      (call.FindsNothing (call.scan.runOn cursor).1 ↔ call.extent cursor.skipBlanks.rest = []) := by
  cases call with
  | word => exact ⟨takes_word.1 ▸ Cursor.passes_skipWhile _, takes_word.2⟩
  | name => exact ⟨takes_name.1 ▸ Cursor.passes_skipWhile _, takes_name.2⟩
  | expression logic =>
    by_cases h : nextRun cursor logic = []
    · obtain ⟨error, hrun⟩ := runOn_expression_of_nil h
      rw [scan, hrun]
      exact ⟨Cursor.passes_skipWhile _, iff_of_true ⟨error, rfl⟩ h⟩
    · rw [scan, runOn_expression_of_ne h]
      exact ⟨Cursor.passes_skipWhile _, iff_of_false (by rintro ⟨error, ⟨⟩⟩) h⟩
  | eatOne set =>
    rw [scan, ← bind_pure (Scan.eatOne set)]
    exact takes_eatOne_bind (fun _ _ => rfl) (fun _ => rfl) fun _ _ => by rintro ⟨⟩
  | eat c => exact takes_eatOne_bind (fun _ _ => rfl) (fun _ => rfl) fun _ _ => by rintro ⟨⟩
  | expect c =>
    rw [scan, Scan.expect, Scan.eat, bind_assoc]
    simp only [pure_bind]
    refine takes_eatOne_bind (fun found _ => ?_) (fun _ => ⟨_, rfl⟩) fun _ _ => by rintro ⟨_, ⟨⟩⟩
    cases found <;> rfl
  | expectOne set =>
    refine takes_eatOne_bind (fun found _ => ?_) (fun _ => ⟨_, rfl⟩) fun _ _ => by rintro ⟨_, ⟨⟩⟩
    cases found <;> rfl
  | skipBlanks =>
    have hnil : skipBlanks.extent cursor.skipBlanks.rest = [] :=
      extent_eq_nil_iff.mpr fun _ _ => rfl
    rw [hnil]
    exact ⟨Cursor.passes_nil, iff_of_true trivial rfl⟩

/-- The cursor after some calls on a text, the latest first. A call that failed leaves it where it
stopped. -/
def after (source : String) : List Call → Cursor
  | [] => .ofText source
  | call :: earlier => (call.scan.runOn (after source earlier)).2

variable {source : String} {taken : List Char} {earlier : List Call}

/-- What one call takes comes behind what was taken before. -/
theorem stands_call (h : Stands source.toList taken (after source earlier)) (call : Call) :
    Stands source.toList (taken ++ (after source earlier).rest.takeWhile Text.isBlank ++
      call.extent (after source earlier).skipBlanks.rest) (after source (call :: earlier)) :=
  (h.passes (Cursor.passes_skipWhile Text.isBlank)).passes (call.takes _).1

theorem exists_stands_append (h : Stands source.toList taken (after source earlier))
    (later : List Call) :
    ∃ more, Stands source.toList (taken ++ more) (after source (later ++ earlier)) := by
  induction later with
  | nil => exact ⟨[], by rwa [List.append_nil]⟩
  | cons call later ih =>
    obtain ⟨more, hmore⟩ := ih
    have hcall := stands_call hmore call
    rw [List.append_assoc, List.append_assoc] at hcall
    exact ⟨_, hcall⟩

theorem exists_stands (source : String) (calls : List Call) :
    ∃ taken, Stands source.toList taken (after source calls) := by
  have hstart : Stands source.toList [] (after source []) := Cursor.stands_ofText source
  obtain ⟨taken, htaken⟩ := exists_stands_append hstart calls
  rw [List.append_nil] at htaken
  exact ⟨_, htaken⟩

/-- After any calls, the text taken so far begins the source, the place is the one behind it, and no
later call takes less. The next call takes the blanks and what it looks for. It finds nothing
exactly if the character behind the blanks is none that it looks for, and has then taken just the
blanks. An expression is the longest run of its characters behind the blanks, less the blanks at its
end, and its place is that of its first character. -/
theorem calls_keep_place (source : String) (earlier : List Call) :
    ∃ taken blanks rest,
      Stands source.toList taken (after source earlier) ∧
      (∀ later, ∃ more, Stands source.toList (taken ++ more) (after source (later ++ earlier))) ∧
      LongestRun Text.isBlank (after source earlier).rest blanks rest ∧
      (∀ call : Call, Stands source.toList (taken ++ blanks ++ call.extent rest)
        (after source (call :: earlier))) ∧
      (∀ call : Call, call.FindsNothing (call.scan.runOn (after source earlier)).1 ↔
        ∀ c ∈ rest.head?, call.wants c = false) ∧
      (∀ call : Call, call.FindsNothing (call.scan.runOn (after source earlier)).1 →
        Stands source.toList (taken ++ blanks) (after source (call :: earlier))) ∧
      ∀ logic raw place,
        ((expression logic).runOn (after source earlier)).1 = .ok (raw, place) →
        ∃ run behind, LongestRun (Cursor.isExpressionChar logic) rest run behind ∧
          Stands source.toList (taken ++ blanks ++ run)
            (after source (.expression logic :: earlier)) ∧
          Text.Trims run raw.toList ∧ place = .behind (taken ++ blanks) := by
  obtain ⟨taken, htaken⟩ := exists_stands source earlier
  refine ⟨taken, _, _, htaken, exists_stands_append htaken, longestRun_takeWhile _ _,
    stands_call htaken, fun call => ?_, fun call hnothing => ?_, fun logic raw place hrun => ?_⟩
  · exact (call.takes _).2.trans Call.extent_eq_nil_iff
  · have hcall := stands_call htaken call
    rwa [((call.takes _).2.mp hnothing), List.append_nil] at hcall
  · refine ⟨_, _, longestRun_takeWhile _ _, stands_call htaken (.expression logic), ?_⟩
    by_cases hnil : nextRun (after source earlier) logic = []
    · obtain ⟨error, hfail⟩ := runOn_expression_of_nil hnil
      rw [hfail] at hrun
      cases hrun
    · rw [runOn_expression_of_ne hnil] at hrun
      cases hrun
      refine ⟨?_, (htaken.passes (Cursor.passes_skipWhile Text.isBlank)).place⟩
      rw [String.toList_ofList]
      exact Text.trims_trimEnd _

/-- A condition behind a word and a mark that is not there. -/
theorem calls_keep_place_condition :
    ((expression true).runOn (after "if\n  a <b\t\x7b" [.expect ';', .name])).1 =
      .ok ("a <b", ⟨2, 3⟩) ∧
    ∃ taken run, Stands "if\n  a <b\t\x7b".toList (taken ++ run)
        (after "if\n  a <b\t\x7b" [.expression true, .expect ';', .name]) ∧
      Text.Trims run "a <b".toList ∧ Location.mk 2 3 = .behind taken := by
  have hrun : ((expression true).runOn (after "if\n  a <b\t\x7b" [.expect ';', .name])).1 =
      .ok ("a <b", ⟨2, 3⟩) := by
    have hread : ((expression true).runOn
        (after "if\n  a <b\t\x7b" [.expect ';', .name])).1.toOption =
          some ("a <b", ⟨2, 3⟩) := by decide +kernel
    generalize ((expression true).runOn _).1 = outcome at hread ⊢
    cases outcome with
    | error error => cases hread
    | ok result => exact congrArg _ (Option.some.inj hread)
  obtain ⟨taken, blanks, rest, -, -, -, -, -, -, hexpression⟩ :=
    calls_keep_place "if\n  a <b\t\x7b" [.expect ';', .name]
  obtain ⟨run, behind, -, hstands, htrims, hplace⟩ := hexpression true _ _ hrun
  exact ⟨hrun, taken ++ blanks, run, hstands, htrims, hplace⟩

end Scan

end CircuitScript
