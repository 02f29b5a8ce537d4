import CircuitScript.Formula.Pattern
/-!
Functions and methods.
-/
namespace CircuitScript.Formula

open Reader

variable (rules : Rules) (context : Context)

/-- A block of statements, from its opening brace. -/
def block : Reader Unit := do
  expectsMark "\x7b"
  itemsUntil "\x7d" (do discard <| rules.statement context .listed) (← remaining)

/-- Parameters and body of a function whose own context is given. -/
def functionRest : Reader Arity := do
  expectsMark "("
  let arity ← parametersUntil rules context (← remaining)
  block rules { context with returns := true }
  return arity

/-- What a method does. -/
inductive Access
  | get
  | set
  | call
  deriving DecidableEq, Repr

/-- Parameters and body of a method. What gets a value takes nothing, and what sets one takes
exactly that. -/
def method (access : Access) (asynchronous generator : Bool) : Reader Unit := do
  let arity ← functionRest rules (context.function asynchronous generator)
  match access with
  | .get => require (arity == ⟨0, false⟩)
  | .set => require (arity == ⟨1, false⟩)
  | .call => pure ()

/-- A function after its keyword. The name of an expression belongs to its inside, that of a
declaration to its outside. -/
def function (asynchronous declared : Bool) : Reader (Bool × Option String) := do
  let generator ← eatsMark "*"
  let own := context.function asynchronous generator
  let name ←
    if ← seesIdentifier then some <$> identifier (if declared then context else own)
    else pure none
  discard <| functionRest rules own
  return (generator, name)

/-- An asynchronous function begins with this token: its two words stand on one line. -/
def beginsAsyncFunction (lexeme : Lexeme) : Bool :=
  lexeme.token == .word "async" false &&
    (next? lexeme.rest).any fun next => next.token == .word "function" false && !next.newline

end CircuitScript.Formula
