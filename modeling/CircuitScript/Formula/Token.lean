import CircuitScript.Formula.Numeral
/-!
Tokens of the expression grammar, which is that of ECMAScript modules. A token is read on demand
from what is left of the text, so that a slash can be read as a regular expression where an operand
is due.
-/
namespace CircuitScript.Formula

inductive Token
  | stop
  | numeral (value : Numeral)
  /-- A string, as the code points and lone surrogates that it holds. -/
  | string (codes : List Nat)
  /-- A name or keyword, and whether it is spelt with an escape. -/
  | word (text : String) (escaped : Bool)
  /-- A name after a number sign. -/
  | privateWord (text : String)
  | mark (text : String)
  deriving DecidableEq, Repr, Inhabited

/-- A token, whether a line ends before it, and what follows it. -/
structure Lexeme where
  token : Token
  newline : Bool
  rest : List Char
  deriving DecidableEq, Repr, Inhabited

/-- The text after a block comment, and whether a line ends in it. A comment must be closed. -/
def skipComment (newline : Bool) : List Char → Option (Bool × List Char)
  | '*' :: '/' :: rest => some (newline, rest)
  | c :: rest => skipComment (newline || isLineEnd c) rest
  | [] => none

theorem length_of_skipComment {newline : Bool} {cs : List Char} {result : Bool × List Char}
    (h : skipComment newline cs = some result) : result.2.length < cs.length := by
  fun_induction skipComment newline cs with
  | case1 =>
    cases h
    simp only [List.length_cons]
    omega
  | case2 _ _ _ _ ih =>
    have := ih h
    simp only [List.length_cons]
    omega
  | case3 => simp at h

/-- Skips blanks and comments; also says whether a line ended. -/
def skipTrivia (newline : Bool) (cs : List Char) : Option (Bool × List Char) :=
  match cs with
  | '/' :: '/' :: rest => skipTrivia newline (rest.dropWhile fun c => !isLineEnd c)
  | '/' :: '*' :: rest =>
    match h : skipComment newline rest with
    | some (newline, after) =>
      have := length_of_skipComment h
      skipTrivia newline after
    | none => none
  | c :: rest =>
    if isLineEnd c then skipTrivia true rest
    else if isSpace c then skipTrivia newline rest
    else some (newline, c :: rest)
  | [] => some (newline, [])
termination_by cs.length
decreasing_by
  · have := (List.dropWhile_suffix (l := rest) fun c => !isLineEnd c).length_le
    simp; omega
  · simp_all; omega
  · simp
  · simp

/-- The code point of an escape after its `u`: four digits, or any number of them in braces. -/
def codePoint : List Char → Option (Nat × List Char)
  | '\x7b' :: rest =>
    let digits := rest.takeWhile (isDigitOf 16)
    match rest.dropWhile (isDigitOf 16) with
    | '\x7d' :: after =>
      let value := digitsValue 16 digits
      if digits.isEmpty || 0x10ffff < value then none else some (value, after)
    | _ => none
  | rest =>
    let digits := rest.take 4
    if digits.length = 4 ∧ digits.all (isDigitOf 16) then
      some (digitsValue 16 digits, rest.drop 4)
    else none

/-- The characters of a word, whether any is spelt with an escape, and the text after it. -/
def wordChars (isPart : Char → Bool) : Nat → List Char → Option (List Char × Bool × List Char)
  | 0, cs => some ([], false, cs)
  | fuel + 1, cs =>
    match cs with
    | '\\' :: 'u' :: rest => do
      let (code, rest) ← codePoint rest
      let c := Char.ofNat code
      if isPart c then
        let (chars, _, rest) ← wordChars isWordPart fuel rest
        some (c :: chars, true, rest)
      else none
    | '\\' :: _ => none
    | c :: rest =>
      if isPart c then do
        let (chars, escaped, rest) ← wordChars isWordPart fuel rest
        some (c :: chars, escaped, rest)
      else some ([], false, c :: rest)
    | [] => some ([], false, [])

/-- A word that begins here. -/
def word? (cs : List Char) : Option (String × Bool × List Char) :=
  match wordChars isWordStart (cs.length + 1) cs with
  | some ([], _, _) => none
  | some (chars, escaped, rest) => some (String.ofList chars, escaped, rest)
  | none => none

/-- The value of an escape of one letter in a string. -/
def letterEscape (c : Char) : Char :=
  match c with
  | 'b' => '\x08'
  | 'f' => '\x0c'
  | 'n' => '\n'
  | 'r' => '\r'
  | 't' => '\t'
  | 'v' => '\x0b'
  | c => c

/-- An escape in base eight, at its first digit: at most three digits, and at most 255. -/
def octalEscape (cs : List Char) : Nat × List Char :=
  let most := if cs.head?.any (· ≤ '3') then 3 else 2
  let digits := (cs.take most).takeWhile (isDigitOf 8)
  (digitsValue 8 digits, cs.drop digits.length)

/-- The codes of a string that is closed by `quote`, and the text after it. -/
def stringCodes (quote : Char) : Nat → List Char → Option (List Nat × List Char)
  | 0, _ => none
  | fuel + 1, cs =>
    let continued := fun (code : Nat) rest => do
      let (codes, rest) ← stringCodes quote fuel rest
      some (code :: codes, rest)
    match cs with
    | [] => none
    | '\\' :: '\r' :: '\n' :: rest => stringCodes quote fuel rest
    | '\\' :: 'x' :: rest =>
      let digits := rest.take 2
      if digits.length = 2 ∧ digits.all (isDigitOf 16) then
        continued (digitsValue 16 digits) (rest.drop 2)
      else none
    | '\\' :: 'u' :: rest => do
      let (code, rest) ← codePoint rest
      continued code rest
    | '\\' :: c :: rest =>
      if isLineEnd c then stringCodes quote fuel rest
      else if isDigitOf 8 c then
        let (code, rest) := octalEscape (c :: rest)
        continued code rest
      else continued (letterEscape c).toNat rest
    | c :: rest =>
      if c == quote then some ([], rest)
      else if c == '\n' || c == '\r' then none
      else continued c.toNat rest

/-- The text that codes spell. Two surrogates in a row are one character; a lone one is none. -/
def textOf? (codes : List Nat) : Option String :=
  (chars codes).map String.ofList
where
  chars : List Nat → Option (List Char)
    | [] => some []
    | high :: low :: rest =>
      if 0xd800 ≤ high ∧ high < 0xdc00 ∧ 0xdc00 ≤ low ∧ low < 0xe000 then
        (chars rest).map (Char.ofNat (0x10000 + (high - 0xd800) * 0x400 + (low - 0xdc00)) :: ·)
      else if 0xd800 ≤ high ∧ high < 0xe000 then none
      else (chars (low :: rest)).map (Char.ofNat high :: ·)
    | [code] => if 0xd800 ≤ code ∧ code < 0xe000 then none else some [Char.ofNat code]

/-- Punctuators, longer ones before their beginnings. -/
def marks : List String :=
  [">>>=", "...", "===", "!==", "**=", "<<=", ">>=", ">>>", "&&=", "||=", "??=",
   "=>", "==", "!=", "<=", ">=", "&&", "||", "??", "?.", "++", "--", "+=", "-=", "*=", "/=", "%=",
   "&=", "|=", "^=", "<<", ">>", "**",
   "\x7b", "\x7d", "(", ")", "[", "]", ";", ",", "<", ">", "+", "-", "*", "/", "%", "&", "|", "^",
   "!", "~", "?", ":", "=", ".", "`", "@"]

/-- The longest punctuator that begins here. Before a digit, `?.` is a question mark. -/
def mark? (cs : List Char) : Option (Token × List Char) := do
  let text ← marks.find? fun text => text.toList.isPrefixOf cs
  let rest := cs.drop text.length
  if text = "?." ∧ rest.head?.any (isDigitOf 10) then some (.mark "?", cs.drop 1)
  else some (.mark text, rest)

/-- The token at the first character of a text. -/
def token? (cs : List Char) : Option (Token × List Char) :=
  match cs with
  | [] => some (.stop, [])
  | c :: rest =>
    if isDigitOf 10 c || (c == '.' && rest.head?.any (isDigitOf 10)) then
      (Numeral.read cs).map fun (numeral, rest) => (.numeral numeral, rest)
    else if c == '"' || c == '\x27' then
      (stringCodes c (rest.length + 1) rest).map fun (codes, rest) => (.string codes, rest)
    else if isWordStart c || c == '\\' then
      (word? cs).map fun (text, escaped, rest) => (.word text escaped, rest)
    else if c == '#' then (word? rest).map fun (text, _, rest) => (.privateWord text, rest)
    else mark? cs

/-- The next token, or none where the text has no token. -/
def next? (cs : List Char) : Option Lexeme := do
  let (newline, cs) ← skipTrivia false cs
  let (token, rest) ← token? cs
  some ⟨token, newline, rest⟩

/-- Flags of a regular expression. They are distinct, and `u` excludes `v`. -/
def isFlags (flags : List Char) : Bool :=
  flags.all ("dgimsuvy".toList.contains ·) && flags.Nodup &&
    !(flags.contains 'u' && flags.contains 'v')

/-- The text after a regular expression, at the character that follows its first slash. A slash in
brackets does not end it. -/
def regexEnd (inClass : Bool) : List Char → Option (List Char)
  | '\\' :: c :: rest => if isLineEnd c then none else regexEnd inClass rest
  | '[' :: rest => regexEnd true rest
  | ']' :: rest => regexEnd false rest
  | c :: rest =>
    if isLineEnd c then none
    else if c == '/' && !inClass then
      let after := rest.dropWhile isWordPart
      if isFlags (rest.takeWhile isWordPart) && after.head? != some '\\' then some after else none
    else regexEnd inClass rest
  | [] => none

/-- Whether an escape in a template stands for a character, and the text after it. -/
def templateEscape : List Char → Bool × List Char
  | 'u' :: rest => ((codePoint rest).map fun (_, rest) => (true, rest)).getD (false, rest)
  | 'x' :: rest => ((rest.take 2).length = 2 ∧ (rest.take 2).all (isDigitOf 16), rest)
  | '0' :: rest => (!rest.head?.any (isDigitOf 10), rest)
  | c :: rest => (!isDigitOf 10 c, rest)
  | [] => (false, [])

/-- A stretch of a template: whether its escapes all stand for characters, whether a substitution
follows it, and the text after it. -/
structure Stretch where
  sound : Bool
  substitutes : Bool
  rest : List Char
  deriving DecidableEq, Repr

/-- The stretch of a template that begins here. -/
def stretch? (sound : Bool) : Nat → List Char → Option Stretch
  | 0, _ => none
  | fuel + 1, cs =>
    match cs with
    | '\\' :: rest =>
      let (escapes, rest) := templateEscape rest
      stretch? (sound && escapes) fuel rest
    | '`' :: rest => some ⟨sound, false, rest⟩
    | '$' :: '\x7b' :: rest => some ⟨sound, true, rest⟩
    | _ :: rest => stretch? sound fuel rest
    | [] => none

end CircuitScript.Formula
