import CircuitScript.Formula.Form
import CircuitScript.Formula.Token
/-!
Readers, which take tokens from the front of a text, and the record of rules that are used on
shorter texts in their own definition.
-/
namespace CircuitScript.Formula

/-- What is left of a text, and the names that it has exported so far. -/
structure Source where
  rest : List Char
  exported : List String
  deriving DecidableEq, Repr

/-- A reader takes some text from the front, or fails. -/
abbrev Reader := StateT Source Option

namespace Reader

variable {α : Type}

/-- The next token, left in place. -/
def peek : Reader Lexeme := fun source => (next? source.rest).map fun lexeme => (lexeme, source)

/-- Goes on at this text. -/
def moveTo (rest : List Char) : Reader Unit := modify fun source => { source with rest }

/-- Takes the token that was peeked. -/
def accept (lexeme : Lexeme) : Reader Unit := moveTo lexeme.rest

/-- Takes the next token. -/
def take : Reader Lexeme := do
  let lexeme ← peek
  accept lexeme
  return lexeme

/-- The token after the next one, if there is one. -/
def second? : Reader (Option Lexeme) := do
  let lexeme ← peek
  return next? lexeme.rest

def fails : Reader α := fun _ => none

def require (condition : Bool) : Reader Unit := if condition then pure () else fails

/-- The next token is this one. -/
def sees (token : Token) : Reader Bool := return (← peek).token == token

def seesMark (text : String) : Reader Bool := sees (.mark text)

def seesWord (text : String) : Reader Bool := sees (.word text false)

/-- Takes the next token if it is this one. -/
def eats (token : Token) : Reader Bool := do
  let lexeme ← peek
  if lexeme.token == token then
    accept lexeme
    return true
  else return false

def eatsMark (text : String) : Reader Bool := eats (.mark text)

def eatsWord (text : String) : Reader Bool := eats (.word text false)

def expects (token : Token) : Reader Unit := do require (← eats token)

def expectsMark (text : String) : Reader Unit := expects (.mark text)

def expectsWord (text : String) : Reader Unit := expects (.word text false)

/-- The codes of a string. -/
def expectsString : Reader (List Nat) := do
  match (← take).token with
  | .string codes => return codes
  | _ => fails

/-- A semicolon may be left out here: before a closing brace, at the end of the text and at the end
of a line. -/
def seesStatementEnd : Reader Bool := do
  let lexeme ← peek
  return lexeme.newline || [.mark ";", .mark "\x7d", .stop].contains lexeme.token

/-- Ends a statement at a semicolon, or where one may be left out. -/
def semicolon : Reader Unit := do
  unless ← eatsMark ";" do require (← seesStatementEnd)

/-- A fuel above the number of characters left. -/
def remaining : Reader Nat := return (← get).rest.length + 1

/-- Items up to a closing mark, which is taken. Each item takes at least one character, so a fuel
above the number of characters is enough. -/
def itemsUntil (close : String) (item : Reader Unit) : Nat → Reader Unit
  | 0 => fails
  | fuel + 1 => do
    unless ← eatsMark close do
      item
      itemsUntil close item fuel

/-- Items up to a closing mark, with a comma after each; the last comma may be left out. Says
whether it is there. -/
def listUntil (close : String) (item : Reader α) : Nat → Reader (List α × Bool)
  | 0 => fails
  | fuel + 1 => do
    let first ← item
    if ← eatsMark "," then
      if ← eatsMark close then return ([first], true)
      else
        let (others, comma) ← listUntil close item fuel
        return (first :: others, comma)
    else
      expectsMark close
      return ([first], false)

/-- A list that may be empty, after its opening mark. -/
def list (close : String) (item : Reader α) : Reader (List α × Bool) := do
  if ← eatsMark close then return ([], false)
  else listUntil close item (← remaining)

/-- At least one item, with commas between them. -/
def separated (item : Reader α) : Nat → Reader (List α)
  | 0 => fails
  | fuel + 1 => do
    let first ← item
    if ← eatsMark "," then return first :: (← separated item fuel)
    else return [first]

/-- A name is exported only once. -/
def exports (name : String) : Reader Unit := do
  let source ← get
  require !source.exported.contains name
  set { source with exported := name :: source.exported }

end Reader

/-- What surrounds a part of a text. -/
structure Context where
  /-- `in` is an operator. -/
  allowIn : Bool
  /-- `yield` is an operator, as in generators. -/
  yields : Bool
  /-- `await` is an operator, as in asynchronous functions and at the top. -/
  awaits : Bool
  /-- `return` may be used. -/
  returns : Bool
  /-- The part decorates a class or a member, so that a bracket does not belong to it. -/
  decorates : Bool
  deriving DecidableEq, Repr

namespace Context

/-- Outside all functions. -/
def top : Context := ⟨true, false, true, false, false⟩

/-- Inside brackets of any kind. -/
def inside (context : Context) : Context := { context with allowIn := true, decorates := false }

/-- Inside a function. -/
def function (context : Context) (awaits yields : Bool) : Context :=
  { context.inside with awaits, yields }

/-- Words that never name anything. -/
def reservedWords : List String :=
  ["break", "case", "catch", "class", "const", "continue", "debugger", "default", "delete", "do",
   "else", "enum", "export", "extends", "false", "finally", "for", "function", "if", "import", "in",
   "instanceof", "new", "null", "return", "super", "switch", "this", "throw", "true", "try",
   "typeof", "var", "void", "while", "with"]

def isReserved (text : String) : Bool := reservedWords.contains text

/-- The word can name something here. -/
def allows (context : Context) (text : String) : Bool :=
  !(isReserved text || (context.yields && text == "yield") || (context.awaits && text == "await"))

end Context

/-- Where a statement stands. -/
inductive Place
  /-- In a list of statements. -/
  | listed
  /-- Alone, as part of another statement, where most declarations are refused. -/
  | alone
  deriving DecidableEq, Repr

/-- The rules of the grammar that stand in their own definition, to be used on a shorter text. -/
structure Rules where
  /-- An expression without commas. -/
  assignment : Context → Reader Form
  unary : Context → Reader Form
  /-- Operators and operands of a greater rank, after a first operand. -/
  operators : Context → Nat → Form → Reader Form
  /-- What may follow an operand: members, calls and templates. The flags say whether calls are
  taken, and whether the operand is part of an optional chain. -/
  suffixes : Context → Bool → Bool → Form → Reader Form
  /-- An operand with its suffixes. -/
  operand : Context → Reader Form
  /-- What `new` creates, after that word. -/
  creation : Context → Reader Form
  /-- Stretches of a template after its first quote. The flag says whether every escape must stand
  for a character. -/
  template : Context → Bool → Reader Unit
  /-- What a declaration or parameter binds. -/
  binding : Context → Reader Unit
  /-- A type. The flag says whether it may be conditional. -/
  type : Context → Bool → Reader Unit
  /-- A statement. The form is given if the statement is an expression. -/
  statement : Context → Place → Reader (Option Form)

/-- Rules that read nothing. -/
def Rules.none : Rules where
  assignment _ := Reader.fails
  unary _ := Reader.fails
  operators _ _ _ := Reader.fails
  suffixes _ _ _ _ := Reader.fails
  operand _ := Reader.fails
  creation _ := Reader.fails
  template _ _ := Reader.fails
  binding _ := Reader.fails
  type _ _ := Reader.fails
  statement _ _ := Reader.fails

end CircuitScript.Formula
