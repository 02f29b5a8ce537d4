import CircuitScript.Error
import CircuitScript.Text.Blank
/-!
Reading a script character by character. A cursor holds what is left of the text and where that
begins; every read first skips blanks, and a read that fails leaves the cursor where it stopped.
-/
namespace CircuitScript

/-- The place after a character. Only a line feed begins a new line. -/
def Location.after (location : Location) (c : Char) : Location :=
  if c = '\n' then ⟨location.line + 1, 1⟩ else ⟨location.line, location.column + 1⟩

structure Cursor where
  rest : List Char
  location : Location
  deriving DecidableEq, Repr, Inhabited

/-- A word of a statement. -/
inductive Word
  | name (text : String)
  | number (value : Int32)
  deriving DecidableEq, Repr, Inhabited

/-- The value of a word of digits that fits 32 bits with a sign. A longer string of digits is no
number. -/
def Word.number? (word : List Char) : Option Int32 :=
  if word.all Char.isDigit then
    let value := word.foldl (fun value c => 10 * value + (c.toNat - '0'.toNat)) 0
    if value < Nat.pow 2 31 then some (Int32.ofNat value) else none
  else none

/-- A read of some of the text. -/
abbrev Scan := ExceptT Error (StateM Cursor)

namespace Cursor

def ofText (text : String) : Cursor := ⟨text.toList, ⟨1, 1⟩⟩

def atEnd (cursor : Cursor) : Bool := cursor.rest.isEmpty

/-- The next few characters, for messages. -/
def snippet (cursor : Cursor) : String := String.ofList (cursor.rest.take 10)

/-- Moves over the longest run of characters of a class. -/
def skipWhile (cursor : Cursor) (p : Char → Bool) : Cursor where
  rest := cursor.rest.dropWhile p
  location := (cursor.rest.takeWhile p).foldl Location.after cursor.location

def skipBlanks (cursor : Cursor) : Cursor := cursor.skipWhile Text.isBlank

def isWordChar (c : Char) : Bool := c.isAlphanum || c == '_' || c == '@'

/-- Characters of an expression; those of comparisons and logic only in a condition. -/
def isExpressionChar (logic : Bool) (c : Char) : Bool :=
  c.isAlphanum || "_ \t+-*/()".toList.contains c || (logic && "&|<>=!".toList.contains c)

end Cursor

namespace Scan

/-- Runs a read: its outcome, and the cursor afterwards. -/
def runOn {α : Type} (scan : Scan α) (cursor : Cursor) : Except Error α × Cursor := scan.run cursor

def skipBlanks : Scan Unit := modify Cursor.skipBlanks

/-- Fails at the place where the cursor stands. -/
def failHere {α : Type} (fault : String → SyntaxFault) : Scan α := do
  let cursor ← get
  throw (.syntactic (fault cursor.snippet) (some cursor.location))

/-- Takes the longest run of characters of a class. -/
def takeWhile (p : Char → Bool) : Scan (List Char) := do
  let cursor ← get
  set (cursor.skipWhile p)
  return cursor.rest.takeWhile p

/-- The next word and the place where it begins. -/
def rawWord : Scan (List Char × Location) := do
  skipBlanks
  let place := (← get).location
  let word ← takeWhile Cursor.isWordChar
  if word.isEmpty then failHere .keywordExpected
  return (word, place)

/-- The next word, which may be a number. -/
def word : Scan Word := do
  let (chars, _) ← rawWord
  match Word.number? chars with
  | some value => return .number value
  | none => return .name (String.ofList chars)

/-- The next word, which must not be a number. -/
def name : Scan String := do
  let (chars, place) ← rawWord
  match Word.number? chars with
  | some _ => throw (.syntactic (.digitsAsName (String.ofList chars)) (some place))
  | none => return String.ofList chars

/-- The text of an expression, up to the end of its statement, and the place where it begins. -/
def expression (logic : Bool) : Scan (String × Location) := do
  skipBlanks
  let place := (← get).location
  let raw := Text.trimEnd (← takeWhile (Cursor.isExpressionChar logic))
  if raw.isEmpty then failHere .expressionExpected
  return (String.ofList raw, place)

/-- Takes the next character if it is one of a set. -/
def eatOne (set : List Char) : Scan (Option Char) := do
  skipBlanks
  let cursor ← get
  match cursor.rest with
  | c :: rest =>
    if set.contains c then
      MonadStateOf.set { rest := rest, location := cursor.location.after c : Cursor }
      return some c
    else return none
  | [] => return none

/-- Takes the next character if it is `c`. -/
def eat (c : Char) : Scan Bool := return (← eatOne [c]).isSome

/-- Takes `c`, which must come next. -/
def expect (c : Char) : Scan Unit := do
  unless ← eat c do failHere (.charExpected c)

/-- Takes the next character, which must be one of a set. -/
def expectOne (set : List Char) : Scan Char := do
  match ← eatOne set with
  | some c => return c
  | none => failHere (.oneOfExpected set)

/-- Skips blanks and semicolons. -/
def skipSeparators : Scan Unit :=
  modify fun cursor => cursor.skipWhile fun c => Text.isBlank c || c == ';'

end Scan

end CircuitScript
