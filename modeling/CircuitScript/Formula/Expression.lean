import CircuitScript.Formula.Class
/-!
Expressions, from operands up to sequences. A rule recurs only after it has taken some text.
-/
namespace CircuitScript.Formula

open Reader

/-- Binary operators by rank; a greater rank binds tighter. -/
def rank? (context : Context) : Token → Option (String × Nat)
  | .mark text =>
    (match text with
      | "??" => some 1
      | "||" => some 2
      | "&&" => some 3
      | "|" => some 4
      | "^" => some 5
      | "&" => some 6
      | "==" | "!=" | "===" | "!==" => some 7
      | "<" | ">" | "<=" | ">=" => some 8
      | "<<" | ">>" | ">>>" => some 9
      | "+" | "-" => some 10
      | "*" | "/" | "%" => some 11
      | "**" => some 12
      | _ => none).map fun rank => (text, rank)
  | .word "instanceof" false => some ("instanceof", 8)
  | .word "in" false => if context.allowIn then some ("in", 8) else none
  | _ => none

variable (rules : Rules) (context : Context)

/-- Expressions separated by commas. -/
def sequenceRest (first : Form) : Nat → Reader Form
  | 0 => fails
  | fuel + 1 => do
    if ← eatsMark "," then
      discard <| rules.assignment context
      sequenceRest .other fuel
    else return first

/-- An expression with commas, through the rule for one without. -/
def sequence : Reader Form := do
  let first ← rules.assignment context
  sequenceRest rules context first (← remaining)

/-- An argument of a call, or an item of an array. -/
def argument : Reader Part := do
  if ← eatsMark "..." then return .spread (← rules.assignment context.inside)
  else return .single (← rules.assignment context.inside)

/-- An item of an array, which may be left out. -/
def arrayItem : Reader Part := do
  if ← seesMark "," then return .hole else argument rules context

/-- The arguments of a call after its opening parenthesis. -/
def arguments : Reader Unit := do discard <| list ")" (argument rules context)

/-- The rest of a template, after its first quote or the end of a substitution. -/
def template (strict : Bool) : Reader Unit := do
  let source ← get
  let stretch ← StateT.lift (stretch? true (source.rest.length + 1) source.rest)
  require (stretch.sound || !strict)
  moveTo stretch.rest
  if stretch.substitutes then
    discard <| sequence rules context.inside
    expectsMark "\x7d"
    rules.template context strict

/-- A class with decorators before it. -/
def decoratedClass : Reader (Option String) := do
  discard <| decorators rules context (← remaining)
  expectsWord "class"
  classRest rules context

/-- An operand without suffixes, which begins with a word. -/
def wordOperand (lexeme : Lexeme) (text : String) : Reader Form := do
  accept lexeme
  if beginsAsyncFunction lexeme then
    expectsWord "function"
    discard <| function rules context true false
    return .other
  match lexeme.token with
  | .word "true" false => return .bool true
  | .word "false" false => return .bool false
  | .word "null" false | .word "this" false => return .other
  | .word "function" false =>
    discard <| function rules context false false
    return .other
  | .word "class" false =>
    discard <| classRest rules context
    return .other
  | _ =>
    require (context.allows text)
    return .name text

/-- An operand without suffixes. -/
def primary : Reader Form := do
  let lexeme ← peek
  match lexeme.token with
  | .numeral (.float value) =>
    accept lexeme
    return .number value
  | .numeral .big =>
    accept lexeme
    return .other
  | .string _ =>
    accept lexeme
    return .string
  | .word text _ => wordOperand rules context lexeme text
  | .mark "@" =>
    discard <| decoratedClass rules context
    return .other
  | .mark "(" =>
    accept lexeme
    let inner ← sequence rules context.inside
    expectsMark ")"
    return .group inner
  | .mark "[" =>
    accept lexeme
    let (parts, comma) ← list "]" (arrayItem rules context)
    return .ofList parts comma
  | .mark "\x7b" =>
    accept lexeme
    object rules context
  | .mark "`" =>
    accept lexeme
    template rules context true
    return .other
  | .mark "/" =>
    moveTo (← StateT.lift (regexEnd false lexeme.rest))
    return .other
  | .mark "/=" =>
    moveTo (← StateT.lift (regexEnd false ('=' :: lexeme.rest)))
    return .other
  | _ => fails

/-- The name of a member after a point. -/
def pointName : Reader Unit := do
  match (← take).token with
  | .word .. | .privateWord _ => pure ()
  | _ => fails

/-- The member in brackets, after the opening one. -/
def bracketName : Reader Unit := do
  discard <| sequence rules context.inside
  expectsMark "]"

def suffixes (calls chained : Bool) (form : Form) : Reader Form := do
  let lexeme ← peek
  let place := if chained then .other else .member
  match lexeme.token with
  | .mark "." =>
    accept lexeme
    pointName
    rules.suffixes context calls chained place
  | .mark "[" =>
    if context.decorates then return form
    else
      accept lexeme
      bracketName rules context
      rules.suffixes context calls chained place
  | .mark "?." =>
    require calls
    accept lexeme
    if ← eatsMark "(" then arguments rules context
    else if ← eatsMark "[" then bracketName rules context
    else pointName
    rules.suffixes context calls true .other
  | .mark "(" =>
    if calls then
      accept lexeme
      arguments rules context
      rules.suffixes context calls chained .other
    else return form
  | .mark "`" =>
    require !chained
    accept lexeme
    template rules context false
    rules.suffixes context calls chained .other
  | _ => return form

/-- The arguments of a dynamic import: a source, and maybe options. -/
def importArguments : Reader Unit := do
  expectsMark "("
  discard <| rules.assignment context.inside
  if ← eatsMark "," then
    unless ← seesMark ")" do
      discard <| rules.assignment context.inside
      discard <| eatsMark ","
  expectsMark ")"

/-- An import as an operand, after its word. Says whether it is a call. -/
def importOperand : Reader Bool := do
  if ← eatsMark "." then
    if ← eatsWord "meta" then return false
    else unless ← eatsWord "source" do expectsWord "defer"
  importArguments rules context
  return true

/-- What a `super` may be followed by. -/
def superOperand : Reader Unit := do
  require ((← seesMark ".") || (← seesMark "[") || (← seesMark "("))

/-- What `new` creates, without suffixes. Says whether it is the call of an import. -/
def created : Reader Bool := do
  if ← eatsWord "new" then
    discard <| rules.creation context
    return false
  else if ← eatsWord "super" then
    superOperand
    return false
  else if ← eatsWord "import" then importOperand rules context
  else
    discard <| primary rules context
    return false

/-- What `new` creates, after that word, and the arguments if there are any. The call of an import
cannot be created, though a member of one can. -/
def creation : Reader Form := do
  if ← eatsMark "." then expectsWord "target"
  else
    let calls ← created rules context
    require (!calls || (← seesMark ".") || (← seesMark "[") || (← seesMark "`"))
    discard <| rules.suffixes context false false .other
    if ← eatsMark "(" then arguments rules context
  return .other

/-- An operand without suffixes, which may be created, imported or inherited. -/
def subject : Reader Form := do
  if ← eatsWord "new" then creation rules context
  else if ← eatsWord "super" then
    superOperand
    return .other
  else if ← eatsWord "import" then
    discard <| importOperand rules context
    return .other
  else primary rules context

/-- An operand with its suffixes. -/
def operand : Reader Form := do
  let form ← subject rules context
  rules.suffixes context true false form

/-- An operand that `++` or `--` may follow on the same line. -/
def postfixed : Reader Form := do
  let form ← operand rules context
  let lexeme ← peek
  if (lexeme.token == .mark "++" || lexeme.token == .mark "--") && !lexeme.newline then
    accept lexeme
    require form.isPlace
    return .other
  else return form

/-- Operators that stand before their operand. -/
def prefixOperator? : Token → Option String
  | .mark text => if ["+", "-", "!", "~"].contains text then some text else none
  | .word text false => if ["typeof", "void", "delete"].contains text then some text else none
  | _ => none

/-- The token after a word makes an operator of it, since it begins an operand on the same line. -/
def beginsOperand (next : Lexeme) : Bool :=
  !next.newline &&
    match next.token with
    | .word .. | .string _ | .numeral _ => true
    | _ => false

def unary : Reader Form := do
  let lexeme ← peek
  match prefixOperator? lexeme.token with
  | some op =>
    accept lexeme
    return .unary op (← rules.unary context)
  | none =>
    match lexeme.token with
    | .word "await" escaped =>
      if context.awaits then
        require !escaped
        accept lexeme
        discard <| rules.unary context
        return .awaiting
      else
        let next := next? lexeme.rest
        require !(next.any fun next => beginsOperand next && next.token != .word "of" false)
        postfixed rules context
    | .mark "++" | .mark "--" =>
      accept lexeme
      let form ← rules.unary context
      require form.isPlace
      return .other
    | _ => postfixed rules context

/-- A first operand of operators. A private name is one only on the left of `in`. -/
def firstOperand (rank : Nat) : Reader Form := do
  let lexeme ← peek
  match lexeme.token with
  | .privateWord _ =>
    accept lexeme
    require (context.allowIn && rank < 8)
    expectsWord "in"
    let right ← rules.unary context
    discard <| rules.operators context 8 right
    return .other
  | _ => unary rules context

/-- Operators of a rank above `rank`, each with its right operand. Operands group to the left, those
of `**` to the right. -/
def operators (rank : Nat) (left : Form) : Reader Form := do
  let lexeme ← peek
  match rank? context lexeme.token with
  | some (op, own) =>
    if rank < own then
      accept lexeme
      let inner := if op == "**" then own - 1 else own
      let first ← firstOperand rules context inner
      let right ← rules.operators context inner first
      let form ← StateT.lift (Form.join? op left right)
      rules.operators context rank form
    else return left
  | none => return left

/-- Operators that assign a combined value. -/
def assignmentMarks : List String :=
  ["+=", "-=", "*=", "/=", "%=", "**=", "<<=", ">>=", ">>>=", "&=", "|=", "^=", "&&=", "||=", "??="]

/-- Tokens before which `yield` has no argument. -/
def endsYield : Token → Bool
  | .stop => true
  | .word "in" false => true
  | .mark text => [";", "\x7d", ")", "]", ":", ","].contains text
  | _ => false

/-- What follows `yield`: an argument on the same line, or all items of one after a star. -/
def yieldRest : Reader Form := do
  unless (← peek).newline do
    let all ← eatsMark "*"
    if all || !endsYield (← peek).token then discard <| rules.assignment context
  return .other

/-- An expression without commas that does not begin with `yield`. -/
def combination : Reader Form := do
  let first ← firstOperand rules context 0
  let form ← rules.operators context 0 first
  let lexeme ← peek
  match lexeme.token with
  | .mark text =>
    if assignmentMarks.contains text then
      accept lexeme
      require form.isTarget
      discard <| rules.assignment context
      return .other
    else if text == "?" then
      accept lexeme
      discard <| rules.assignment { context with allowIn := true }
      expectsMark ":"
      discard <| rules.assignment context
      return .other
    else return form
  | _ => return form

/-- An expression without commas. Outside generators `yield` is a name, but not before an
operand. -/
def assignment : Reader Form := do
  let lexeme ← peek
  match lexeme.token with
  | .word "yield" escaped =>
    if context.yields || (next? lexeme.rest).any beginsOperand then
      require (context.yields && !escaped)
      accept lexeme
      yieldRest rules context
    else combination rules context
  | _ => combination rules context

end CircuitScript.Formula
