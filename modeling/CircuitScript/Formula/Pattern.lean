import CircuitScript.Formula.Reader
/-!
Names, and what declarations and parameters bind to them.
-/
namespace CircuitScript.Formula

open Reader

/-- A name that can be declared here. -/
def identifier (context : Context) : Reader String := do
  match (← take).token with
  | .word text _ =>
    require (context.allows text)
    return text
  | _ => fails

/-- The next token is a name that declarations take, whether this place allows it or not. -/
def seesIdentifier : Reader Bool := do
  match (← peek).token with
  | .word text _ => return !Context.isReserved text
  | _ => return false

variable (rules : Rules) (context : Context)

/-- The name of a member: a word, string or number, or an expression in brackets. Gives the name if
it is spelt out as a word or string. -/
def memberName : Reader (Option String) := do
  match (← take).token with
  | .word text _ => return some text
  | .string codes => return textOf? codes
  | .numeral _ => return none
  | .mark "[" =>
    discard <| rules.assignment context.inside
    expectsMark "]"
    return none
  | _ => fails

/-- A member of an object pattern. -/
def patternMember : Reader Unit := do
  let lexeme ← peek
  discard <| memberName rules context
  if ← eatsMark ":" then rules.binding context
  else
    match lexeme.token with
    | .word text _ => require (context.allows text)
    | _ => fails

/-- The parts of a pattern up to a closing mark, which is taken. A part after three points takes
what is left over; it is the last, without a comma. -/
def patternUntil (close : String) (part rest : Reader Unit) : Nat → Reader Unit
  | 0 => fails
  | fuel + 1 => do
    unless ← eatsMark close do
      if ← eatsMark "..." then
        rest
        expectsMark close
      else
        part
        if ← eatsMark "," then patternUntil close part rest fuel
        else expectsMark close

/-- An item of an array pattern, which may be left out. -/
def patternItem : Reader Unit := do
  unless ← seesMark "," do rules.binding context

/-- A name, or a pattern of names. -/
def binding : Reader Unit := do
  if ← eatsMark "[" then
    patternUntil "]" (patternItem rules context) (rules.binding context) (← remaining)
  else if ← eatsMark "\x7b" then
    patternUntil "\x7d" (patternMember rules context) (discard <| identifier context) (← remaining)
  else discard <| identifier context

/-- Decorators, each an operand after its mark. Says whether there are any. -/
def decorators : Nat → Reader Bool
  | 0 => fails
  | fuel + 1 => do
    if ← eatsMark "@" then
      discard <| rules.operand { context with decorates := true }
      discard <| decorators fuel
      return true
    else return false

/-- What a parameter list takes. -/
structure Arity where
  /-- How many parameters stand before the last comma or the end. -/
  count : Nat
  /-- The last parameter takes all remaining arguments. -/
  takesRest : Bool
  deriving DecidableEq, Repr

/-- Parameters up to the closing parenthesis, which is taken. -/
def parametersUntil : Nat → Reader Arity
  | 0 => fails
  | fuel + 1 => do
    if ← eatsMark ")" then return ⟨0, false⟩
    else
      discard <| decorators rules context (← remaining)
      if ← eatsMark "..." then
        rules.binding context
        expectsMark ")"
        return ⟨1, true⟩
      else
        rules.binding context
        if ← eatsMark "," then
          let others ← parametersUntil fuel
          return { others with count := others.count + 1 }
        else
          expectsMark ")"
          return ⟨1, false⟩

end CircuitScript.Formula
