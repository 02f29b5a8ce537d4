import CircuitScript.Text.Unseen
/-!
Quoted text for messages: the text between double quotes, with an escape for every character that
would not show.
-/
namespace CircuitScript.Text

/-- A code point in lower case hexadecimal, without leading zeros. -/
def hex (code : Nat) : String := String.ofList (Nat.toDigits 16 code)

/-- One character of a quoted text. Quotes and backslashes are escaped, the common controls have a
letter, and any other character that shows nothing is given by its code point. -/
def quoteChar : Char → String
  | '\x00' => "\\0"
  | '\t' => "\\t"
  | '\r' => "\\r"
  | '\n' => "\\n"
  | '"' => "\\\""
  | '\\' => "\\\\"
  | c => if isUnseen c then "\\u\x7b" ++ hex c.toNat ++ "\x7d" else String.singleton c

def quote (text : String) : String := "\"" ++ String.join (text.toList.map quoteChar) ++ "\""

end CircuitScript.Text
