import CircuitScript.Proofs.ScriptReading
/-!
Where a script goes wrong. Statements are read round by round, and each round that goes on takes a
character, so the reading ends for every text. If it ends in an error, the error is one of a script
and has a place: the one behind some front part of the text.
-/
namespace CircuitScript

variable {P : String → Prop} {reading middle after : Reading}

theorem Operand.named_of_forall (h : ∀ name, P name) (operand : Operand) : operand.Named P := by
  cases operand with
  | constant value => trivial
  | signal name => exact h name

theorem Step.named_of_forall (h : ∀ name, P name) (step : Step) : step.Named P :=
  ⟨step.left.named_of_forall h, step.right.named_of_forall h, h step.out⟩

theorem Scope.spelt_of_forall (h : ∀ name, P name) (scope : Scope) : scope.Spelt P :=
  fun entry _ => ⟨h entry.1, h entry.2⟩

mutual

theorem Node.named_of_forall (h : ∀ name, P name) : ∀ node : Node, node.Named P
  | .chain scope body | .parallel scope body | .series scope body =>
    ⟨scope.spelt_of_forall h, bodyNamed_of_forall h body⟩
  | .conditional _ scope test out body =>
    ⟨scope.spelt_of_forall h, test.named_of_forall h, h out, bodyNamed_of_forall h body⟩
  | .compare _ _ left right out => ⟨left.named_of_forall h, right.named_of_forall h, h out⟩
  | .and _ body out | .or _ body out => ⟨bodyNamed_of_forall h body, h out⟩
  | .step step => step.named_of_forall h

theorem bodyNamed_of_forall (h : ∀ name, P name) : ∀ body : List Node, BodyNamed P body
  | [] => trivial
  | node :: rest => ⟨node.named_of_forall h, bodyNamed_of_forall h rest⟩

theorem Side.named_of_forall (h : ∀ name, P name) : ∀ side : Side, side.Named P
  | .value operand => operand.named_of_forall h
  | .series scope body => ⟨scope.spelt_of_forall h, bodyNamed_of_forall h body⟩

end

theorem Opening.named_of_forall (h : ∀ name, P name) (opening : Opening) : opening.Named P := by
  cases opening with
  | conditional loops test out => exact ⟨test.named_of_forall h, h out⟩
  | _ => trivial

theorem spelling_of_forall (origin : Cursor) (h : ∀ name, P name) : Spelling origin P :=
  ⟨fun name _ => h name, fun text _ => h text, fun name _ => h name, h _, h _⟩

theorem Reading.sound_of_forall (h : ∀ name, P name) (reading : Reading) :
    reading.Sound reading.cursor P :=
  ⟨.refl, reading.script.scope.spelt_of_forall h, fun node _ => node.named_of_forall h,
    fun block _ => ⟨block.opening.named_of_forall h, block.scope.spelt_of_forall h,
      fun node _ => node.named_of_forall h⟩⟩

theorem Error.eq_of_place? {error : Error} {place : Location} (h : error.place? = some place) :
    (∃ fault, error = .syntactic fault (some place)) ∨
      (∃ fault, error = .structural fault (some place)) ∨
      ∃ pool, error = .exhausted pool (some place) := by
  cases error with
  | syntactic fault found => exact .inl ⟨fault, congrArg _ h⟩
  | structural fault found => exact .inr (.inl ⟨fault, congrArg _ h⟩)
  | exhausted pool found => exact .inr (.inr ⟨pool, congrArg _ h⟩)
  | _ => cases h

namespace Parser

theorem scan_eq_ok {α : Type} {read : Scan α} {a : α} (h : scan read reading = .ok (a, after)) :
    read.runOn reading.cursor = (.ok a, after.cursor) := by
  obtain ⟨cursor, hread, rfl⟩ := exists_of_scan h
  exact outcome_eq_ok_iff.mp hread

theorem exists_of_bind {α β : Type} {action : Parser α} {next : α → Parser β} {b : β}
    (h : (action >>= next) reading = .ok (b, after)) :
    ∃ a middle, action reading = .ok (a, middle) ∧ next a middle = .ok (b, after) := by
  have hrun : (action reading >>= fun result => next result.1 result.2) = .ok (b, after) := h
  obtain ⟨⟨a, middle⟩, ha, hb⟩ := exists_of_bind_ok hrun
  exact ⟨a, middle, ha, hb⟩

/-- A round that goes on takes a character: the brace that closes a block, or one of the word that
the statement begins with. Nothing before or after goes back. -/
theorem round_consumes (h : round reading = .ok (true, after)) :
    after.cursor.rest.length < reading.cursor.rest.length := by
  have hspelling := spelling_of_forall (P := fun _ => True) reading.cursor fun _ => trivial
  have hreading := reading.sound_of_forall (P := fun _ => True) fun _ => trivial
  rw [round] at h
  obtain ⟨_, start, hskip, h⟩ := exists_of_bind h
  obtain ⟨hskips, hstart, -⟩ := (upholds_scan Scan.walks_skipSeparators).ok hreading hskip
  have hskips := Cursor.Moves.length_le hskips
  obtain ⟨found, _, hget, h⟩ := exists_of_bind h
  cases hget
  have hplace : Cursor.Visits Cursor.isMark reading.cursor start.cursor.location :=
    ⟨_, hstart.cursor, rfl⟩
  dsimp only at h
  split at h
  · cases h
  · obtain ⟨closes, middle, heat, h⟩ := exists_of_bind h
    obtain ⟨heats, hmiddle, -⟩ := (upholds_scan (Scan.walks_eat rfl)).ok hstart heat
    have heats := Cursor.Moves.length_le heats
    split at h
    · next hfound =>
      subst hfound
      have hlt := Scan.length_lt_of_eat (scan_eq_ok heat)
      obtain ⟨_, _, hclose, h⟩ := exists_of_bind h
      cases h
      have hcloses := Cursor.Moves.length_le ((upholds_close hplace).ok hmiddle hclose).1
      omega
    · obtain ⟨keyword, later, hname, h⟩ := exists_of_bind h
      have hlt := Scan.length_lt_of_name (scan_eq_ok hname)
      obtain ⟨-, hlater, -⟩ := (upholds_name hspelling).ok hmiddle hname
      obtain ⟨_, _, hstatement, h⟩ := exists_of_bind h
      cases h
      have hreads := Cursor.Moves.length_le
        ((upholds_statement hspelling trivial hplace).ok hlater hstatement).1
      omega

/-- Rounds one after another for as long as they go on, and how they end. Nothing bounds their
number from the start. -/
inductive Rounds : Reading → Except Error Reading → Prop
  | stop {reading after : Reading} (h : round reading = .ok (false, after)) :
      Rounds reading (.ok after)
  | fail {reading : Reading} {error : Error} (h : round reading = .error error) :
      Rounds reading (.error error)
  | next {reading middle : Reading} {outcome : Except Error Reading}
      (h : round reading = .ok (true, middle)) (rest : Rounds middle outcome) :
      Rounds reading outcome

theorem Rounds.unique {outcome other : Except Error Reading} (h : Rounds reading outcome)
    (h' : Rounds reading other) : outcome = other := by
  induction h with
  | stop h => cases h' <;> simp_all
  | fail h => cases h' <;> simp_all
  | next h rest ih =>
    cases h' with
    | next h'' rest' =>
      cases h.symm.trans h''
      exact ih rest'
    | _ => simp_all

/-- With more fuel than there are characters, the rounds are run to their end. -/
theorem rounds_statements {fuel : Nat} (h : reading.cursor.rest.length < fuel) :
    Rounds reading ((statements fuel reading).map Prod.snd) := by
  induction fuel generalizing reading with
  | zero => omega
  | succ fuel ih =>
    have hsucc : statements (fuel + 1) reading =
        (round reading >>= fun result => if result.1 then statements fuel result.2
          else .ok ((), result.2)) := by
      rw [statements_succ]
      show (round reading >>= _) = _
      congr
      funext result
      rcases result with ⟨_ | _, _⟩ <;> rfl
    rw [hsucc]
    cases hround : round reading with
    | error error => exact .fail hround
    | ok result =>
      obtain ⟨more, middle⟩ := result
      cases more with
      | false => exact .stop hround
      | true => exact .next hround (ih (by have := round_consumes hround; omega))

end Parser

namespace Script

variable {source : String}

theorem placedFrom_of_parse {error : Error} (h : parse source = .error error) :
    error.PlacedFrom Cursor.isMark (.ofText source) := by
  have hspelling := spelling_of_forall (P := fun _ => True) (.ofText source) fun _ => trivial
  have hstart := (Reading.start source).sound_of_forall (P := fun _ => True) fun _ => trivial
  rw [parse_eq] at h
  cases hrun : Parser.statements (source.length + 1) (.start source) with
  | error found =>
    rw [hrun] at h
    cases h
    exact (Parser.upholds_statements hspelling).error hstart hrun
  | ok result =>
    obtain ⟨-, hfinal, -⟩ := (Parser.upholds_statements hspelling).ok hstart hrun
    rw [hrun] at h
    change result.2.finish = _ at h
    rw [Reading.finish] at h
    split at h
    · cases h
      exact ⟨_, rfl, _, hfinal.cursor, rfl⟩
    · cases h

theorem exists_parse_error {Q : Error → Prop} [∀ error, Decidable (Q error)]
    (h : (match parse source with
      | .ok _ => false
      | .error error => decide (Q error)) = true) :
    ∃ error, parse source = .error error ∧ Q error := by
  cases he : parse source with
  | error error =>
    rw [he] at h
    exact ⟨error, rfl, of_decide_eq_true h⟩
  | ok script =>
    rw [he] at h
    cases h

/-- For every text the rounds end, each but the last having taken a character, and their end is that
of the reading. An error is a fault of a script, and it has the place behind some front part of the
text. -/
theorem parse_ends_placed (source : String) :
    (∀ reading after, Parser.round reading = .ok (true, after) →
      after.cursor.rest.length < reading.cursor.rest.length) ∧
    (∃ outcome, (∀ other, Parser.Rounds (.start source) other ↔ other = outcome) ∧
      parse source = outcome >>= Reading.finish) ∧
    ∀ error, parse source = .error error → ∃ place,
      ((∃ fault, error = .syntactic fault (some place)) ∨
        (∃ fault, error = .structural fault (some place)) ∨
        ∃ pool, error = .exhausted pool (some place)) ∧
      ∃ front back, source.toList = front ++ back ∧ place.line = 1 + front.count '\n' ∧
        place.column = 1 + (front.reverse.takeWhile (· != '\n')).length := by
  refine ⟨fun _ _ => Parser.round_consumes, ?_, fun error herror => ?_⟩
  · have hrounds : Parser.Rounds (.start source)
        ((Parser.statements (source.length + 1) (.start source)).map Prod.snd) := by
      refine Parser.rounds_statements ?_
      rw [Reading.start, Cursor.ofText, String.length_toList]
      omega
    refine ⟨_, fun other => ⟨fun h => h.unique hrounds, ?_⟩, parse_eq source⟩
    rintro rfl
    exact hrounds
  · obtain ⟨place, hplace, cursor, hmoves, rfl⟩ := placedFrom_of_parse herror
    obtain ⟨front, hfront, hlocation⟩ := hmoves.exists_taken
    have hlines := hlocation.trans (Location.foldl_after front)
    refine ⟨cursor.location, Error.eq_of_place? hplace, front, cursor.rest, hfront, ?_, ?_⟩
    · rw [hlines]
    · rw [hlines]

/-- A condition that is always true is found behind the aliases, where its formula begins. -/
theorem parse_ends_placed_constant :
    ∃ error, parse "alias a = b\n\nif 3 + 4 > 2 \x7b" = .error error ∧
      error.place? = some ⟨3, 4⟩ ∧ ∃ place,
        ((∃ fault, error = .syntactic fault (some place)) ∨
          (∃ fault, error = .structural fault (some place)) ∨
          ∃ pool, error = .exhausted pool (some place)) ∧
        ∃ front back, "alias a = b\n\nif 3 + 4 > 2 \x7b".toList = front ++ back ∧
          place.line = 1 + front.count '\n' ∧
          place.column = 1 + (front.reverse.takeWhile (· != '\n')).length := by
  obtain ⟨error, hparse, hplace⟩ : ∃ error,
      parse "alias a = b\n\nif 3 + 4 > 2 \x7b" = .error error ∧ error.place? = some ⟨3, 4⟩ :=
    exists_parse_error (by decide +kernel)
  exact ⟨error, hparse, hplace, (parse_ends_placed _).2.2 error hparse⟩

end Script

end CircuitScript
