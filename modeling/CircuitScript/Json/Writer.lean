import CircuitScript.Json.Basic
import CircuitScript.Text.Quoted
/-!
Writing JSON, on one line or indented.
-/
namespace CircuitScript

def Numeral.render (n : Numeral) : String :=
  (if n.negative then "-" else "") ++ String.ofList n.whole ++
    (match n.fraction with
      | some digits => "." ++ String.ofList digits
      | none => "") ++
    (match n.exponent with
      | some (negative, digits) => (if negative then "e-" else "e") ++ String.ofList digits
      | none => "")

namespace Json

/-- One character inside quotes. Quotes, backslashes and controls are escaped, all else is
written as it is. -/
def escapeChar : Char → String
  | '"' => "\\\""
  | '\\' => "\\\\"
  | '\x08' => "\\b"
  | '\x0c' => "\\f"
  | '\n' => "\\n"
  | '\r' => "\\r"
  | '\t' => "\\t"
  | c =>
    if c.toNat < 0x20 then
      "\\u00" ++ (if c.toNat < 0x10 then "0" else "") ++ Text.hex c.toNat
    else String.singleton c

def renderText (text : String) : String :=
  "\"" ++ String.join (text.toList.map escapeChar) ++ "\""

/-- A key or text; one that is no text has no written form and is left out. -/
def renderText? (text : Option String) : String := renderText (text.getD "")

mutual

/-- The value on one line, without blanks. -/
def render : Json → String
  | null => "null"
  | bool value => if value then "true" else "false"
  | number value => value.render
  | string text => renderText? text
  | array items => "[" ++ renderItems items ++ "]"
  | object members => "\x7b" ++ renderMembers members ++ "\x7d"

def renderItems : List Json → String
  | [] => ""
  | [item] => render item
  | item :: rest => render item ++ "," ++ renderItems rest

def renderMembers : List (Option String × Json) → String
  | [] => ""
  | [(key, value)] => renderText? key ++ ":" ++ render value
  | (key, value) :: rest => renderText? key ++ ":" ++ render value ++ "," ++ renderMembers rest

end

/-- A new line and the indentation of a level. -/
def newline (level : Nat) : String := "\n" ++ String.ofList (List.replicate (2 * level) ' ')

mutual

/-- The value over several lines, each level indented by two. -/
def pretty (level : Nat) : Json → String
  | null => "null"
  | bool value => if value then "true" else "false"
  | number value => value.render
  | string text => renderText? text
  | array [] => "[]"
  | array items => "[" ++ prettyItems (level + 1) items ++ newline level ++ "]"
  | object [] => "\x7b\x7d"
  | object members => "\x7b" ++ prettyMembers (level + 1) members ++ newline level ++ "\x7d"

def prettyItems (level : Nat) : List Json → String
  | [] => ""
  | [item] => newline level ++ pretty level item
  | item :: rest => newline level ++ pretty level item ++ "," ++ prettyItems level rest

def prettyMembers (level : Nat) : List (Option String × Json) → String
  | [] => ""
  | [(key, value)] => newline level ++ renderText? key ++ ": " ++ pretty level value
  | (key, value) :: rest =>
    newline level ++ renderText? key ++ ": " ++ pretty level value ++ "," ++
      prettyMembers level rest

end

end Json

end CircuitScript
