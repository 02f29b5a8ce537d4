import CircuitScript.Formula.Function
/-!
Object literals.
-/
namespace CircuitScript.Formula

open Reader

/-- The token can stand after a modifier of a member. -/
def followsModifier : Token → Bool
  | .privateWord _ | .word .. | .string _ | .numeral _ => true
  | .mark text => ["[", "\x7b", "*", "..."].contains text
  | .stop => false

/-- The token can stand after `get` or `set` before the name of a member. -/
def followsAccess : Token → Bool
  | .privateWord _ | .word .. | .string _ | .numeral _ => true
  | .mark text => text == "["
  | .stop => false

/-- Takes a word before a token that can follow it. -/
def eatsBefore (text : String) (follows : Lexeme → Bool) : Reader Bool := do
  let lexeme ← peek
  if lexeme.token == .word text false && (next? lexeme.rest).any follows then
    accept lexeme
    return true
  else return false

/-- Takes a modifier of a member, which is a word that is not itself the name. The flag says whether
the name may stand on another line. -/
def eatsModifier (text : String) (crossesLines : Bool) : Reader Bool :=
  eatsBefore text fun next => followsModifier next.token && (crossesLines || !next.newline)

/-- Takes `get` or `set` before the name of a member. -/
def eatsAccess : Reader Access := do
  if ← eatsBefore "get" (followsAccess ·.token) then return .get
  else if ← eatsBefore "set" (followsAccess ·.token) then return .set
  else return .call

variable (rules : Rules) (context : Context)

/-- A member of an object literal. -/
def objectMember : Reader Part := do
  if ← eatsMark "..." then return .spread (← rules.assignment context.inside)
  let asynchronous ← eatsModifier "async" false
  let access ← if asynchronous then pure .call else eatsAccess
  let generator ← if access == .call then eatsMark "*" else pure false
  let lexeme ← peek
  discard <| memberName rules context
  if asynchronous || generator || access != .call || (← seesMark "(") then
    method rules context access asynchronous generator
    return .single .other
  else if ← eatsMark ":" then return .single (← rules.assignment context.inside)
  else
    match lexeme.token with
    | .word text _ =>
      require (context.allows text)
      return .single (.name text)
    | _ => fails

/-- An object literal after its opening brace. -/
def object : Reader Form := do
  let (parts, comma) ← list "\x7d" (objectMember rules context)
  return .ofObject parts comma

end CircuitScript.Formula
