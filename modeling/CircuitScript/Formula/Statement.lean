import CircuitScript.Formula.Module
/-!
Statements. A text is one expression only if it is a single statement of that kind, so the others
matter as far as they are well formed.
-/
namespace CircuitScript.Formula

open Reader

variable (rules : Rules) (context : Context)

/-- An expression in parentheses. -/
def parenthesized : Reader Unit := do
  expectsMark "("
  discard <| sequence rules context
  expectsMark ")"

/-- A statement that is part of another one. -/
def inner : Reader Unit := do discard <| rules.statement context .alone

/-- The rest of the head of a loop that has conditions, after what it starts with. -/
def loopConditions : Reader Unit := do
  expectsMark ";"
  unless ← seesMark ";" do discard <| sequence rules context
  expectsMark ";"
  unless ← seesMark ")" do discard <| sequence rules context
  expectsMark ")"

/-- The rest of the head of a loop over keys. -/
def loopKeys : Reader Unit := do
  expectsWord "in"
  discard <| sequence rules context
  expectsMark ")"

/-- The rest of the head of a loop over values. -/
def loopValues : Reader Unit := do
  expectsWord "of"
  discard <| rules.assignment context
  expectsMark ")"

/-- The head of a loop that begins with an expression. Before `of` it must not begin with `let`, and
it is a bare `async` only if the loop awaits. -/
def loopExpression (awaits : Bool) : Reader Unit := do
  let lexeme ← peek
  let form ← sequence rules { context with allowIn := false }
  if ← seesWord "in" then
    require (form.isTarget && !awaits)
    loopKeys rules context
  else if ← seesWord "of" then
    require form.isTarget
    require !(lexeme.token matches .word "let" _)
    require (awaits || !(lexeme.token == .word "async" false && form == .name "async"))
    loopValues rules context
  else
    require !awaits
    loopConditions rules context

/-- The head of a loop after its opening parenthesis. A loop that awaits ranges over values. -/
def loopHead (awaits : Bool) : Reader Unit := do
  if ← seesMark ";" then
    require !awaits
    loopConditions rules context
  else
    match ← loopDeclaration rules { context with allowIn := false } with
    | some names =>
      if ← seesWord "in" then
        require (names.keys && !awaits)
        loopKeys rules context
      else if ← seesWord "of" then loopValues rules context
      else
        require (names.counts && !awaits)
        loopConditions rules context
    | none => loopExpression rules context awaits

/-- A `for` loop after its keyword. -/
def loop : Reader Unit := do
  let awaits ← eatsWord "await"
  require (context.awaits || !awaits)
  expectsMark "("
  loopHead rules context awaits
  inner rules context

/-- The statements of a clause of a `switch`, up to the next clause or the end. -/
def clauseRest : Nat → Reader Unit
  | 0 => fails
  | fuel + 1 => do
    unless (← seesWord "case") || (← seesWord "default") || (← seesMark "\x7d") do
      discard <| rules.statement context .listed
      clauseRest fuel

/-- A clause of a `switch`. -/
def clause : Reader Unit := do
  if ← eatsWord "case" then discard <| sequence rules context
  else expectsWord "default"
  expectsMark ":"
  clauseRest rules context (← remaining)

/-- A `switch` after its keyword. -/
def switch : Reader Unit := do
  parenthesized rules context
  expectsMark "\x7b"
  itemsUntil "\x7d" (clause rules context) (← remaining)

/-- A `try` after its keyword. -/
def attempt : Reader Unit := do
  block rules context
  let caught ← eatsWord "catch"
  if caught then
    if ← eatsMark "(" then
      rules.binding context
      expectsMark ")"
    block rules context
  if ← eatsWord "finally" then block rules context else require caught

/-- A label if one follows on the same line, and the end of the statement. -/
def optionalLabel : Reader Unit := do
  unless ← seesStatementEnd do discard <| identifier context
  semicolon

/-- A statement that begins with a keyword, after that; none for other words. -/
def keywordStatement? (place : Place) : String → Option (Reader Unit)
  | "var" => some do discard <| declaredNames context
  | "if" => some do
    parenthesized rules context
    inner rules context
    if ← eatsWord "else" then inner rules context
  | "while" | "with" => some do
    parenthesized rules context
    inner rules context
  | "do" => some do
    inner rules context
    expectsWord "while"
    parenthesized rules context
    discard <| eatsMark ";"
  | "for" => some (loop rules context)
  | "switch" => some (switch rules context)
  | "try" => some (attempt rules context)
  | "throw" => some do
    require !(← peek).newline
    discard <| sequence rules context
    semicolon
  | "return" => some do
    require context.returns
    unless ← seesStatementEnd do discard <| sequence rules context
    semicolon
  | "break" | "continue" => some (optionalLabel context)
  | "debugger" => some semicolon
  | "function" => some do discard <| declaredFunction rules context place false
  | "class" => some do discard <| declaredClass rules context place
  | "export" => some (exportRest rules context false)
  | _ => none

/-- An expression as a statement, or a statement with a label. -/
def expressionStatement : Reader (Option Form) := do
  let form ← sequence rules context
  if (form matches .name _) && (← seesMark ":") then
    expectsMark ":"
    inner rules context
    return none
  else
    semicolon
    return some form

/-- What the token after `let` makes of that word. -/
inductive LetUse
  /-- The left operand of an operator. -/
  | operand
  /-- Something with members or called. -/
  | subject
  /-- A name alone. -/
  | name
  /-- The beginning of a declaration. -/
  | keyword
  deriving DecidableEq, Repr

/-- Operators before which `let` is a name. Those of `&&`, `||` and `??` are not among them. -/
def letOperators : List String :=
  ["==", "!=", "===", "!==", "<", "<=", ">", ">=", "<<", ">>", ">>>", "+", "-", "*", "/", "%", "|",
   "^", "&", "**"] ++ assignmentMarks

def LetUse.ofNext (place : Place) : Token → LetUse
  | .word "in" false | .word "instanceof" false => operand
  | .mark text =>
    if letOperators.contains text then operand
    else if text == "." || text == "(" then subject
    else if text == ";" || (place == .alone && text != "[") then name
    else keyword
  | _ => if place == .alone then name else keyword

/-- A statement that begins with `let`. Members and calls of it need no end. -/
def letStatement (place : Place) (lexeme : Lexeme) : Reader (Option Form) := do
  let next ← StateT.lift (next? lexeme.rest)
  match LetUse.ofNext place next.token with
  | .operand =>
    let form ← rules.assignment context
    semicolon
    return some form
  | .subject => return some (← sequence rules context)
  | .name =>
    accept lexeme
    semicolon
    return some (.name "let")
  | .keyword =>
    require (place == .listed)
    accept lexeme
    discard <| declaredNames context
    return none

/-- A statement that begins with a word. -/
def wordStatement (place : Place) (lexeme : Lexeme) (text : String) : Reader (Option Form) := do
  match keywordStatement? rules context place text with
  | some rest =>
    accept lexeme
    rest
    return none
  | none =>
    let follows := fun mark => (next? lexeme.rest).any (·.token == .mark mark)
    if text == "let" then letStatement rules context place lexeme
    else if text == "import" && !follows "(" && !follows "." then
      accept lexeme
      importRest context
      return none
    else if beginsAsyncFunction lexeme then
      accept lexeme
      expectsWord "function"
      discard <| declaredFunction rules context place true
      return none
    else expressionStatement rules context

/-- A statement that begins with decorators: a class, or the export of one. -/
def decoratedStatement (place : Place) : Reader Unit := do
  discard <| decorators rules context (← remaining)
  if ← eatsWord "export" then exportRest rules context true
  else
    let modifiers ← Modifier.read [] (← remaining)
    require (allowsOnly [.ambient, .incomplete] modifiers)
    expectsWord "class"
    discard <| declaredClass rules context place

/-- A statement. -/
def statement (place : Place) : Reader (Option Form) := do
  let lexeme ← peek
  match lexeme.token with
  | .mark ";" =>
    accept lexeme
    return none
  | .mark "\x7b" =>
    block rules context
    return none
  | .mark "@" =>
    decoratedStatement rules context place
    return none
  | .word text false => wordStatement rules context place lexeme text
  | _ => expressionStatement rules context

end CircuitScript.Formula
