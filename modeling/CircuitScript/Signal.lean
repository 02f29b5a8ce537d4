/-!
Signals and what a combinator does with them: operands, the four arithmetic operators, the three
comparators and the payload configured on one combinator. Signal values are 32-bit words that wrap.
-/
namespace CircuitScript

/-- The wildcard that stands for every signal present on a network. -/
def each : String := "signal_each"

/-- The wildcard that outputs every signal present on a network. -/
def everything : String := "signal_everything"

/-- Scratch signals, in the order in which they are handed out. -/
def scratchSignals : List String :=
  ["signal_A", "signal_B", "signal_C", "signal_D", "signal_E", "signal_F", "signal_G", "signal_H",
   "signal_I", "signal_J", "signal_K", "signal_L", "signal_M", "signal_N", "signal_O", "signal_P",
   "signal_Q", "signal_R", "signal_S", "signal_T", "signal_U", "signal_V", "signal_W", "signal_X",
   "signal_Y", "signal_Z", "signal_0", "signal_1", "signal_2", "signal_3", "signal_4", "signal_5",
   "signal_6", "signal_7", "signal_8", "signal_9"]

/-- The arithmetic operators of a combinator. -/
inductive Arith
  | add | sub | mul | div
  deriving DecidableEq, Repr, Inhabited

namespace Arith

def symbol : Arith → String
  | add => "+"
  | sub => "-"
  | mul => "*"
  | div => "/"

def ofChar? : Char → Option Arith
  | '+' => some add
  | '-' => some sub
  | '*' => some mul
  | '/' => some div
  | _ => none

/-- The operator that a text begins with; whatever follows the first character is not looked at. -/
def ofText? (text : String) : Option Arith := text.toList.head?.bind ofChar?

/-- Combinator arithmetic: results wrap to 32 bits, division goes toward zero and `x / 0 = 0`. -/
def apply (op : Arith) (a b : Int32) : Int32 :=
  match op with
  | add => a + b
  | sub => a - b
  | mul => a * b
  | div => a / b

end Arith

/-- The comparators of a decider. -/
inductive Comparator
  | lt | gt | eq
  deriving DecidableEq, Repr, Inhabited

namespace Comparator

def symbol : Comparator → String
  | lt => "<"
  | gt => ">"
  | eq => "="

def ofText? : String → Option Comparator
  | "<" => some lt
  | ">" => some gt
  | "=" => some eq
  | _ => none

/-- The comparator that holds for swapped operands. -/
def swapped : Comparator → Comparator
  | lt => gt
  | gt => lt
  | eq => eq

def holds (op : Comparator) (a b : Int32) : Bool :=
  match op with
  | lt => decide (a < b)
  | gt => decide (b < a)
  | eq => decide (a = b)

end Comparator

/-- What a combinator reads: a signal by name, or a constant. -/
inductive Operand
  | signal (name : String)
  | constant (value : Int32)
  deriving DecidableEq, Repr, Inhabited

/-- A word in decimal. -/
def decimal (value : Int32) : String := toString value.toInt

def Operand.text : Operand → String
  | signal name => name
  | constant value => decimal value

/-- The payload of a combinator. A counting decider passes on the count of its output signal; any
other decider emits one. -/
inductive Condition
  | arithmetic (left : Operand) (op : Arith) (right : Operand) (out : String)
  | decider (left : Operand) (op : Comparator) (right : Operand) (out : String) (counting : Bool)
  deriving DecidableEq, Repr, Inhabited

def Condition.text : Condition → String
  | arithmetic left op right out =>
    left.text ++ " " ++ op.symbol ++ " " ++ right.text ++ " -> " ++ out
  | decider left op right out counting =>
    left.text ++ " " ++ op.symbol ++ " " ++ right.text ++ " -> " ++ out ++
      (if counting then " (count)" else "")

/-- How the game files a signal: its category and its name written with dashes. -/
structure SignalId where
  category : String
  name : String
  deriving DecidableEq, Repr, Inhabited

namespace SignalId

/-- Names that begin with `signal_` are virtual signals, all others are items. -/
def ofName (name : String) : SignalId where
  category := if name.startsWith "signal_" then "virtual" else "item"
  name := name.map fun c => if c = '_' then '-' else c

/-- The script's name of a signal, written with underscores. -/
def toName (dashed : String) : String := dashed.map fun c => if c = '-' then '_' else c

end SignalId

end CircuitScript
