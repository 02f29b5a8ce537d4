import CircuitScript.Formula.Letter
import CircuitScript.Number.Binary64
/-!
Numbers as the expression grammar writes them.
-/
namespace CircuitScript.Formula

inductive Numeral
  | float (value : Binary64)
  /-- An integer of any size, marked by an `n`. -/
  | big
  deriving DecidableEq, Repr, Inhabited

namespace Numeral

/-- The longest run of digits, in which an underscore may stand between two digits, and the text
after it. The underscores are dropped. -/
def digitRun (base : Nat) : List Char → List Char × List Char
  | c :: '_' :: next :: rest =>
    if isDigitOf base c then
      if isDigitOf base next then
        let (digits, after) := digitRun base (next :: rest)
        (c :: digits, after)
      else ([c], '_' :: next :: rest)
    else ([], c :: '_' :: next :: rest)
  | c :: rest =>
    if isDigitOf base c then
      let (digits, after) := digitRun base rest
      (c :: digits, after)
    else ([], c :: rest)
  | [] => ([], [])

/-- A number must not run into a word. -/
def endsNumber : List Char → Bool
  | c :: _ => !(isWordStart c || c == '\\' || isDigitOf 10 c)
  | [] => true

/-- A finished number. -/
def finish (numeral : Numeral) (rest : List Char) : Option (Numeral × List Char) :=
  if endsNumber rest then some (numeral, rest) else none

/-- The exponent after its mark. It must have digits. -/
def exponent (cs : List Char) : Option (Int × List Char) :=
  let (negative, cs) :=
    match cs with
    | '-' :: rest => (true, rest)
    | '+' :: rest => (false, rest)
    | rest => (false, rest)
  match digitRun 10 cs with
  | ([], _) => none
  | (digits, rest) =>
    let value : Int := digitsValue 10 digits
    some (if negative then -value else value, rest)

/-- The exponent of a decimal, zero where there is none. -/
def optionalExponent : List Char → Option (Int × List Char)
  | 'e' :: rest | 'E' :: rest => exponent rest
  | rest => some (0, rest)

/-- The value of a decimal with `whole` before and `fraction` after the point. -/
def decimalValue (whole fraction : List Char) (exponent : Int) : Numeral :=
  float (.ofDecimal (digitsValue 10 (whole ++ fraction)) (exponent - fraction.length))

/-- The end of a decimal with `whole` before and `fraction` after the point. -/
def decimalEnd (whole fraction rest : List Char) : Option (Numeral × List Char) := do
  let (exponent, rest) ← optionalExponent rest
  finish (decimalValue whole fraction exponent) rest

/-- A decimal after its digits before the point. -/
def decimalAfter (whole rest : List Char) : Option (Numeral × List Char) :=
  match rest with
  | '.' :: rest =>
    let (fraction, rest) := digitRun 10 rest
    decimalEnd whole fraction rest
  | rest => decimalEnd whole [] rest

/-- A decimal that begins with a zero, after the mark of its exponent. What follows the exponent is
not looked at, so a word may stand there. -/
def zeroScaled (whole rest : List Char) : Option (Numeral × List Char) := do
  let (exponent, rest) ← exponent rest
  some (decimalValue whole [] exponent, rest)

/-- How many digits of a base always fit into 64 bits. -/
def wordDigits (base : Nat) : Nat := 64 / base.log2

/-- The value of digits in base two, eight or sixteen. It is rounded once if the digits fit into 64
bits, and after each digit if they do not. -/
def radixValue (base : Nat) (digits : List Char) : Binary64 :=
  if digits.length ≤ wordDigits base then .ofNat (digitsValue base digits)
  else .ofDigits base (digits.map fun c => (digit? c).getD 0)

/-- An integer in base two, eight or sixteen, after its mark. -/
def radix (base : Nat) (cs : List Char) : Option (Numeral × List Char) :=
  match digitRun base cs with
  | ([], _) => none
  | (_, 'n' :: rest) => finish big rest
  | (digits, rest) => finish (float (radixValue base digits)) rest

/-- Digits after a leading zero: base eight, unless a digit is too great for it. The exponent of
such a decimal has a small mark. -/
def zeroLed (cs : List Char) : Option (Numeral × List Char) :=
  let digits := cs.takeWhile (isDigitOf 10)
  let rest := cs.dropWhile (isDigitOf 10)
  if digits.all (isDigitOf 8) then finish (float (radixValue 8 digits)) rest
  else
    match rest with
    | '.' :: _ => decimalAfter digits rest
    | 'e' :: rest => zeroScaled digits rest
    | rest => finish (decimalValue digits [] 0) rest

/-- A number, at its first character. -/
def read (cs : List Char) : Option (Numeral × List Char) :=
  match cs with
  | '0' :: c :: rest =>
    if c == 'x' || c == 'X' then radix 16 rest
    else if c == 'o' || c == 'O' then radix 8 rest
    else if c == 'b' || c == 'B' then radix 2 rest
    else if c == 'e' || c == 'E' then zeroScaled ['0'] rest
    else if c == 'n' then finish big rest
    else if isDigitOf 10 c then zeroLed (c :: rest)
    else decimalAfter ['0'] (c :: rest)
  | '.' :: rest =>
    let (fraction, rest) := digitRun 10 rest
    decimalEnd [] fraction rest
  | cs =>
    match digitRun 10 cs with
    | (_, 'n' :: rest) => finish big rest
    | (whole, rest) => decimalAfter whole rest

end Numeral

end CircuitScript.Formula
