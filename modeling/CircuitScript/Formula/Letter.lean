import CircuitScript.Text.Identifier
/-!
Classes of characters that the expression grammar tells apart.
-/
namespace CircuitScript.Formula

def isLineEnd (c : Char) : Bool :=
  c == '\n' || c == '\r' || c == '\u2028' || c == '\u2029'

/-- Blanks inside a line. -/
def isSpace (c : Char) : Bool :=
  Text.inRanges
    [(0x9, 0x9), (0xb, 0xc), (0x20, 0x20), (0x85, 0x85), (0xa0, 0xa0), (0x1680, 0x1680),
     (0x2000, 0x200b), (0x202f, 0x202f), (0x205f, 0x205f), (0x3000, 0x3000), (0xfeff, 0xfeff)] c

def isWordStart (c : Char) : Bool := c == '$' || c == '_' || Text.isIdentifierStart c

def isWordPart (c : Char) : Bool :=
  c == '$' || c == '\u200c' || c == '\u200d' || Text.isIdentifierPart c

/-- The value of a digit in bases up to sixteen. -/
def digit? (c : Char) : Option Nat :=
  if '0' ≤ c ∧ c ≤ '9' then some (c.toNat - '0'.toNat)
  else if 'a' ≤ c ∧ c ≤ 'f' then some (c.toNat - 'a'.toNat + 10)
  else if 'A' ≤ c ∧ c ≤ 'F' then some (c.toNat - 'A'.toNat + 10)
  else none

def isDigitOf (base : Nat) (c : Char) : Bool := (digit? c).any (· < base)

/-- The value of digits in a base. -/
def digitsValue (base : Nat) (digits : List Char) : Nat :=
  digits.foldl (fun value c => base * value + (digit? c).getD 0) 0

end CircuitScript.Formula
