import CircuitScript.Expr.Reader
import CircuitScript.Script.Cursor
import CircuitScript.Script.Decompose
/-!
Reading a script. Blocks that are open stand on a stack; closing the innermost one adds it to the
body of the one around it.
-/
namespace CircuitScript

/-- What kind of block has been opened. -/
inductive Opening
  | chain | parallel | series
  | conditional (loops : Bool) (test : Node) (out : String)

def Opening.context : Opening → Context
  | chain => .chain
  | parallel => .parallel
  | series => .series
  | conditional loops _ _ => .conditional loops

/-- A block that is not closed yet, with the members read so far. -/
structure OpenBlock where
  opening : Opening
  scope : Scope
  body : List Node

def OpenBlock.close (block : OpenBlock) : Node :=
  match block.opening with
  | .chain => .chain block.scope block.body
  | .parallel => .parallel block.scope block.body
  | .series => .series block.scope block.body
  | .conditional loops test out => .conditional loops block.scope test out block.body

/-- A script that is being read: where the reader stands, what is finished at the top, and the open
blocks from the innermost outwards. -/
structure Reading where
  cursor : Cursor
  script : Script
  blocks : List OpenBlock

abbrev Parser := StateT Reading (Except Error)

namespace Reading

def context (reading : Reading) : Context :=
  match reading.blocks with
  | block :: _ => block.opening.context
  | [] => .script

/-- The scope in force. -/
def scope (reading : Reading) : Scope :=
  match reading.blocks with
  | block :: _ => block.scope
  | [] => reading.script.scope

def withScope (reading : Reading) (scope : Scope) : Reading :=
  match reading.blocks with
  | block :: outer => { reading with blocks := { block with scope := scope } :: outer }
  | [] => { reading with script := { reading.script with scope := scope } }

/-- Adds a construct to the innermost open body. -/
def push (reading : Reading) (node : Node) : Reading :=
  match reading.blocks with
  | block :: outer =>
    { reading with blocks := { block with body := block.body ++ [node] } :: outer }
  | [] => { reading with script := { reading.script with body := reading.script.body ++ [node] } }

end Reading

namespace Parser

/-- Reads some of the text. -/
def scan {α : Type} (action : Scan α) : Parser α := fun reading =>
  match action.runOn reading.cursor with
  | (.ok value, cursor) => .ok (value, { reading with cursor := cursor })
  | (.error error, _) => .error error

/-- A result whose error, if it has no place yet, arose at `place`. -/
def located {α : Type} (place : Location) : Except Error α → Parser α
  | .ok value => pure value
  | .error error => throw (error.located (some place))

/-- Opens a block that stands only in some contexts. -/
def openBlock (opening : Opening) (allowed : Bool) (place : Location) : Parser Unit := do
  let reading ← get
  unless allowed do
    throw (.structural (.misplaced opening.context reading.context) (some place))
  scan (.expect '\x7b')
  modify fun reading => { reading with blocks := ⟨opening, reading.scope, []⟩ :: reading.blocks }

/-- `if EXPRESSION {` or `while EXPRESSION {`. The scope of the block holds the scratch signals of
its condition. -/
def conditional (loops : Bool) : Parser Unit := do
  let (raw, place) ← scan (.expression true)
  let expr ← located place (Expr.ofText raw)
  let (result, scope) := expr.condition.runIn (← get).scope
  let (test, out) ← located place result
  scan (.expect '\x7b')
  modify fun reading =>
    { reading with blocks := ⟨.conditional loops test out, scope, []⟩ :: reading.blocks }

/-- `alias NAME = NAME`. -/
def bindAlias (place : Location) : Parser Unit := do
  let word ← scan .name
  scan (.expect '=')
  let target ← scan .name
  let scope ← located place ((← get).scope.bind word target)
  modify (·.withScope scope)

/-- `=`, or the operator of `OP=`. -/
def assignOperator : Parser (Option Arith) := do
  match Arith.ofChar? (← scan (.expectOne "+-*/=".toList)) with
  | some op =>
    scan (.expect '=')
    return some op
  | none => return none

/-- `NAME = EXPRESSION` or `NAME OP= EXPRESSION`. -/
def assign (name : String) : Parser Unit := do
  let target := (← get).scope.resolve name
  let compound ← assignOperator
  let (raw, place) ← scan (.expression false)
  let value ← located place (Expr.ofText raw)
  let expr :=
    match compound with
    | some op => .plain (.ofArith op) (.name name) value
    | none => value
  let node ← located place (assignment target expr (← get).scope)
  modify (·.push node)

/-- A number, or a name as what it stands for. -/
def operand : Parser Operand := do
  match ← scan .word with
  | .name text => return .signal ((← get).scope.resolve text)
  | .number value => return .constant value

/-- `NAME = OPERAND OP OPERAND`, `NAME = OPERAND` or `NAME OP= OPERAND`. -/
def step (name : String) : Parser Unit := do
  let out := (← get).scope.resolve name
  let step ←
    match ← assignOperator with
    | some op => pure ⟨.signal out, op, ← operand, out⟩
    | none =>
      let left ← operand
      match (← scan (.eatOne "+-*/".toList)).bind Arith.ofChar? with
      | some op => pure ⟨left, op, ← operand, out⟩
      | none => pure ⟨left, .add, .constant 0, out⟩
  modify (·.push (.step step))

/-- The rest of a statement that begins with `keyword` at `place`. -/
def statement (keyword : String) (place : Location) : Parser Unit := do
  let context := (← get).context
  match keyword with
  | "chain" => openBlock .chain (context = .script) place
  | "parallel" => openBlock .parallel (context = .chain) place
  | "series" => openBlock .series (context = .parallel) place
  | "if" => conditional false
  | "while" => conditional true
  | "alias" => bindAlias place
  | name => if context.takesSteps then step name else assign name

/-- Closes the innermost block. -/
def close (place : Location) : Parser Unit := do
  let reading ← get
  match reading.blocks with
  | block :: outer => set ({ reading with blocks := outer }.push block.close)
  | [] => throw (.structural .strayBrace (some place))

/-- Reads statements to the end of the text. Each takes at least one character, so `fuel` is enough
when it exceeds the number of characters. -/
def statements : Nat → Parser Unit
  | 0 => pure ()
  | fuel + 1 => do
    scan .skipSeparators
    let cursor := (← get).cursor
    unless cursor.atEnd do
      if ← scan (.eat '\x7d') then close cursor.location
      else statement (← scan .name) cursor.location
      statements fuel

end Parser

/-- Reads a whole script. -/
def Script.parse (source : String) : Except Error Script := do
  let start : Reading := ⟨.ofText source, ⟨.root, []⟩, []⟩
  let ((), reading) ← Parser.statements (source.length + 1) start
  match reading.blocks with
  | block :: _ =>
    throw (.syntactic (.unclosed block.opening.context) (some reading.cursor.location))
  | [] => return reading.script

end CircuitScript
