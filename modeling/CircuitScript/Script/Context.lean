/-!
Where a statement of a script stands: at the top, or directly inside some block.
-/
namespace CircuitScript

inductive Context
  | script | chain | parallel | series
  /-- An `if` block, or a `while` block when it loops. -/
  | conditional (loops : Bool)
  deriving DecidableEq, Repr, Inhabited

namespace Context

def text : Context → String
  | script => "script"
  | chain => "chain"
  | parallel => "parallel"
  | series => "series"
  | conditional false => "if"
  | conditional true => "while"

/-- In parallel and series blocks an assignment is a single step. -/
def takesSteps : Context → Bool
  | parallel | series => true
  | _ => false

end Context

end CircuitScript
