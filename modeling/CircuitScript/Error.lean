import CircuitScript.Expr.Operator
import CircuitScript.Script.Context
import CircuitScript.Text.Quoted
/-!
Everything that can go wrong, as causes. The `message` functions are the only place that words them.
-/
namespace CircuitScript

/-- A place in a script. Lines and columns count from one, columns in code points. -/
structure Location where
  line : Nat
  column : Nat
  deriving DecidableEq, Repr, Inhabited

def Location.text (location : Location) : String :=
  " (line " ++ toString location.line ++ " char " ++ toString location.column ++ ")"

/-- Why a text is no expression of the language. -/
inductive FormulaFault
  /-- The text breaks the grammar. -/
  | malformed
  /-- The text is well formed, but it is not one expression. -/
  | notSingle
  | unsupported
  | operator (name : String)
  | logicalOperator
  | unaryOperator
  /-- A number that is no 32-bit integer, as it is printed. -/
  | number (value : String)
  deriving DecidableEq, Repr, Inhabited

def FormulaFault.message : FormulaFault → String
  | malformed => "Parse errors: [...]"
  | notSingle => "Expected a single expression"
  | unsupported => "Unsupported expression"
  | operator name => "Unsupported operator " ++ name
  | logicalOperator => "Unsupported logical operator"
  | unaryOperator => "Only !, - and + unary operators supported"
  | number value => "Only 32-bit integers are supported, found " ++ value

/-- A script that does not read. `found` is the text that stands at the place of the fault. -/
inductive SyntaxFault
  | keywordExpected (found : String)
  | digitsAsName (word : String)
  | expressionExpected (found : String)
  | charExpected (expected : Char) (found : String)
  | oneOfExpected (expected : List Char) (found : String)
  | unclosed (block : Context)
  | formula (fault : FormulaFault) (raw : String)
  /-- A fault that a caller of the library found, in its own words. -/
  | other (text : String)
  deriving DecidableEq, Repr, Inhabited

def SyntaxFault.message : SyntaxFault → String
  | keywordExpected found => "Expected keyword, found: " ++ Text.quote found
  | digitsAsName word => "Variable name can not be only numbers: " ++ word
  | expressionExpected found => "Expected expression, found: " ++ Text.quote found
  | charExpected expected found =>
    "Expected character " ++ String.singleton expected ++ ", found: " ++ Text.quote found
  | oneOfExpected expected found =>
    "Expected one of set " ++ String.intercalate "," (expected.map String.singleton) ++ " found " ++
      Text.quote found
  | unclosed block => "Unclosed " ++ block.text ++ " block"
  | formula fault raw => fault.message ++ " in `" ++ raw ++ "`"
  | other text => text

/-- A construct that is used where it has no meaning. -/
inductive StructureFault
  | strayBrace
  | misplaced (block outer : Context)
  | aliasOfScratch (word canonical : String)
  | conditionOnly (op : BinaryOp)
  | unaryLeft
  | constantCondition (value : Literal)
  | notNormalized (op : BinaryOp)
  | notOperand (op : BinaryOp)
  /-- A fault that a caller of the library found, in its own words. -/
  | other (text : String)
  deriving DecidableEq, Repr, Inhabited

def StructureFault.message : StructureFault → String
  | strayBrace => "Unexpected \x7d because no block is open"
  | misplaced block outer => "Cannot create " ++ block.text ++ " inside of " ++ outer.text
  | aliasOfScratch word canonical =>
    "Cannot alias " ++ word ++ " to " ++ canonical ++
      ": the signal is already used as a temporary"
  | conditionOnly op => "`" ++ op.symbol ++ "` can only be used in a condition"
  | unaryLeft => "Unary operators must be simplified before decomposition"
  | constantCondition value => "Condition always evaluates to " ++ value.text
  | notNormalized op => "`" ++ op.symbol ++ "` was not normalized"
  | notOperand op => "`" ++ op.symbol ++ "` can not be used as a comparison operand"
  | other text => text

/-- A blueprint that can not be built from its description, or not be described. -/
inductive BlueprintFault
  | version
  | unknownEntity (name : String)
  | operation (symbol : String)
  | comparator (symbol : String)
  | noCondition
  | missingEntity (number : Nat)
  /-- A decider compares a signal, not a constant. -/
  | constantFirst (value : Int32)
  /-- A wire ends at an entity that does not exist, so its kind is not known. -/
  | danglingWire (number : Nat)
  /-- A fault that a caller of the library found, in its own words. -/
  | other (text : String)
  deriving DecidableEq, Repr, Inhabited

def BlueprintFault.message : BlueprintFault → String
  | version => "unsupported blueprint string version"
  | unknownEntity name => "unknown entity " ++ name
  | operation symbol => "unsupported operation " ++ symbol
  | comparator symbol => "unsupported comparator " ++ symbol
  | noCondition => "control behavior without conditions"
  | missingEntity number => "wire to missing entity " ++ toString number
  | danglingWire number => "dangling wire to entity " ++ toString number
  | constantFirst value => "decider needs a signal as first operand, found " ++ decimal value
  | other text => text

/-- An error of any stage. The faults of a script carry their place once it is known. -/
inductive Error
  | syntactic (fault : SyntaxFault) (place : Option Location)
  | structural (fault : StructureFault) (place : Option Location)
  /-- Every scratch signal of a pool of that size is in use. -/
  | exhausted (pool : Nat) (place : Option Location)
  | unreadable (path reason : String)
  | blueprint (fault : BlueprintFault)
  /-- A compressed stream that is damaged or cut short, or whose content is no text. -/
  | compression
  | base64
  | json
  deriving DecidableEq, Repr, Inhabited

namespace Error

/-- The text of a place, which is empty while the place is unknown. -/
def placeText (place : Option Location) : String := (place.map Location.text).getD ""

def message : Error → String
  | syntactic fault place => "Syntax error: " ++ fault.message ++ placeText place
  | structural fault place => "Structural error: " ++ fault.message ++ placeText place
  | exhausted pool place =>
    "No temp variables left: all " ++ toString pool ++ " candidates are in use" ++ placeText place
  | unreadable path reason => "Failed to read " ++ path ++ ": " ++ reason
  | blueprint fault => "Invalid blueprint: " ++ fault.message
  | compression => "Blueprint compression failed: corrupt deflate stream"
  | base64 => "Blueprint is not valid base64: Invalid symbol"
  | json => "Blueprint JSON error: invalid value"

/-- Gives a fault of a script its place, unless it has one already. -/
def located (error : Error) (place : Option Location) : Error :=
  match error with
  | syntactic fault none => syntactic fault place
  | structural fault none => structural fault place
  | exhausted pool none => exhausted pool place
  | other => other

end Error

end CircuitScript
