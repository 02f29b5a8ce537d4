import CircuitScript.Formula.Expression
/-!
Declarations of names, classes and functions. A declaration has no value, since the sign that would
give one is read as an equality.
-/
namespace CircuitScript.Formula

open Reader

variable (rules : Rules) (context : Context)

/-- Names declared by a statement, after its keyword. Without a value a pattern cannot be declared
there. -/
def declaredNames : Reader (List String) := do
  let names ← separated (identifier context) (← remaining)
  semicolon
  return names

/-- A name or pattern declared in the head of a loop. Says whether it is a name. -/
def loopBinding : Reader Bool := do
  let named ← seesIdentifier
  rules.binding context
  return named

/-- What a declaration in the head of a loop is good for. -/
structure LoopNames where
  /-- It can stand before the conditions of a loop. -/
  counts : Bool
  /-- It can name the keys of an object. -/
  keys : Bool
  deriving DecidableEq, Repr

/-- Names declared in the head of a loop, after their keyword. -/
def loopNames (constant : Bool) : Reader LoopNames := do
  let names ← separated (loopBinding rules context) (← remaining)
  return ⟨!constant && names.all id, true⟩

/-- Resources declared in the head of a loop, after their keyword. They are plain names, and never
keys. -/
def loopResources : Reader LoopNames := do
  discard <| separated (identifier context) (← remaining)
  return ⟨true, false⟩

/-- The token after `let` begins what it declares. -/
def followsLet : Token → Bool
  | .word text _ => text != "in"
  | .mark text => text == "[" || text == "\x7b"
  | _ => false

/-- The token after `using` is the resource that it declares. -/
def followsUsing (next : Lexeme) : Bool :=
  !next.newline &&
    match next.token with
    | .word text _ => !Context.isReserved text
    | _ => false

/-- The token after `using` is the resource that it declares in the head of a loop. There `of` is
one only before a semicolon. -/
def followsLoopUsing (next : Lexeme) : Bool :=
  if next.token == .word "of" false then (next? next.rest).any (·.token == .mark ";")
  else followsUsing next

/-- A declaration in the head of a loop, if there is one. -/
def loopDeclaration : Reader (Option LoopNames) := do
  let lexeme ← peek
  let next := next? lexeme.rest
  match lexeme.token with
  | .word "var" false =>
    accept lexeme
    some <$> loopNames rules context false
  | .word "const" false =>
    accept lexeme
    some <$> loopNames rules context true
  | .word "let" false =>
    if next.any fun next => followsLet next.token then
      accept lexeme
      some <$> loopNames rules context false
    else return none
  | .word "using" false =>
    if next.any followsLoopUsing then
      accept lexeme
      some <$> loopResources context
    else return none
  | .word "await" false =>
    match next with
    | some next =>
      let declares := context.awaits && next.token == .word "using" false && !next.newline
      if declares && (next? next.rest).any followsUsing then
        accept lexeme
        accept next
        some <$> loopResources context
      else return none
    | none => return none
  | _ => return none

/-- A declared function, after its first word. Alone it is a plain function. Gives its name. -/
def declaredFunction (place : Place) (asynchronous : Bool) : Reader String := do
  let (generator, name) ← function rules context asynchronous true
  require (place == .listed || !(asynchronous || generator))
  match name with
  | some name => return name
  | none => fails

/-- A declared class, after its keyword. It never stands alone. -/
def declaredClass (place : Place) : Reader (Option String) := do
  require (place == .listed)
  classRest rules context

end CircuitScript.Formula
