import CircuitScript.Formula.Statement
/-!
Whole texts. The rules are tied together by a fuel that exceeds the length of the text, since every
rule recurs on a shorter one.
-/
namespace CircuitScript.Formula

/-- The rules, recurring at most `fuel` deep. -/
def rules : Nat → Rules
  | 0 => .none
  | fuel + 1 =>
    let inner := rules fuel
    { assignment := assignment inner
      unary := unary inner
      operators := operators inner
      suffixes := suffixes inner
      operand := operand inner
      creation := creation inner
      template := template inner
      binding := binding inner
      type := type inner
      statement := statement inner }

/-- The statements of a text, each with its form if it is an expression. -/
def statements (rules : Rules) : Nat → Reader (List (Option Form))
  | 0 => Reader.fails
  | fuel + 1 => do
    if ← Reader.sees .stop then return []
    else
      let first ← rules.statement .top .listed
      return first :: (← statements rules fuel)

/-- The text after a first line that begins with `#!`, which is a comment. -/
def skipInterpreterLine : List Char → List Char
  | '#' :: '!' :: rest => rest.dropWhile fun c => !isLineEnd c
  | cs => cs

/-- The statements of a text, or none if the text is not well formed. -/
def program? (text : List Char) : Option (List (Option Form)) :=
  let text := skipInterpreterLine text
  let fuel := text.length + 2
  (statements (rules fuel) fuel ⟨text, []⟩).map (·.1)

/-- Strings at the front are directives, not statements. -/
def dropDirectives (program : List (Option Form)) : List (Option Form) :=
  program.dropWhile (· == some .string)

end CircuitScript.Formula
