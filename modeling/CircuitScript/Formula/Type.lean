import CircuitScript.Formula.Object
/-!
Types, which a class names after what it extends or implements, and the bodies of interfaces. They
are read and forgotten. No type is given to a member or parameter, and no function type can be
written, since an arrow cannot.
-/
namespace CircuitScript.Formula

open Reader

/-- Takes a single closing angle, even if it is the beginning of a longer mark. -/
def eatsAngle : Reader Bool := fun source => do
  let (_, rest) ← skipTrivia false source.rest
  match rest with
  | '>' :: rest => some (true, { source with rest })
  | _ => some (false, source)

/-- At least one item up to a closing angle, which is taken. -/
def anglesUntil (item : Reader Unit) : Nat → Reader Unit
  | 0 => fails
  | fuel + 1 => do
    item
    unless ← eatsAngle do
      expectsMark ","
      unless ← eatsAngle do anglesUntil item fuel

/-- Any word. -/
def anyWord : Reader Unit := do
  match (← take).token with
  | .word .. => pure ()
  | _ => fails

/-- A word, and others after points. -/
def qualifiedName : Nat → Reader Unit
  | 0 => fails
  | fuel + 1 => do
    anyWord
    if ← eatsMark "." then qualifiedName fuel

variable (rules : Rules) (context : Context)

/-- Types in angles, if they follow. -/
def typeArguments : Reader Unit := do
  if ← eatsMark "<" then anglesUntil (rules.type context true) (← remaining)

/-- A name with its types, which stand on the same line. -/
def typeReference : Reader Unit := do
  qualifiedName (← remaining)
  unless (← peek).newline do typeArguments rules context

/-- The rest of a template of types, after its first quote or the end of a substitution. -/
def typeTemplate : Nat → Reader Unit
  | 0 => fails
  | fuel + 1 => do
    let source ← get
    let stretch ← StateT.lift (stretch? true (source.rest.length + 1) source.rest)
    require stretch.sound
    moveTo stretch.rest
    if stretch.substitutes then
      rules.type context true
      expectsMark "\x7d"
      typeTemplate fuel

/-- An item of a tuple type, which may have a name. -/
def tupleItem : Reader Unit := do
  discard <| eatsMark "..."
  let lexeme ← peek
  let named ← match lexeme.token, next? lexeme.rest with
    | .word .., some next =>
      if next.token == .mark "?" then
        pure ((next? next.rest).any (·.token == .mark ":"))
      else pure (next.token == .mark ":")
    | _, _ => pure false
  if named then
    accept lexeme
    discard <| eatsMark "?"
    expectsMark ":"
  rules.type context true
  discard <| eatsMark "?"

/-- A member of an interface or an object type. It ends like a statement, or with a comma. -/
def signature : Reader Unit := do
  if ← seesMark "(" then discard <| callSignature
  else if (← seesWord "new") && (← second?).any (·.token == .mark "(") then
    expectsWord "new"
    discard <| callSignature
  else
    discard <| eatsModifier "readonly" false
    let access ← eatsAccess
    discard <| memberName rules context
    discard <| eatsMark "?"
    if access != .call || (← seesMark "(") then
      let arity ← callSignature
      match access with
      | .get => require (arity == ⟨0, false⟩)
      | .set => require (arity == ⟨1, false⟩)
      | .call => pure ()
  unless ← eatsMark "," do semicolon
where
  callSignature : Reader Arity := do
    expectsMark "("
    parametersUntil rules context (← remaining)

/-- Members in braces. -/
def signatures : Reader Unit := do
  expectsMark "\x7b"
  itemsUntil "\x7d" (signature rules context) (← remaining)

/-- A sign and a modifier of a mapped type, if they follow. -/
def mappedModifier (modifier : Token) : Reader Unit := do
  if ← eatsMark "+" then expects modifier
  else if ← eatsMark "-" then expects modifier
  else discard <| eats modifier

/-- The parts of a mapped type, after its opening brace. -/
def mappedType : Reader Unit := do
  mappedModifier (.word "readonly" false)
  expectsMark "["
  anyWord
  expectsWord "in"
  rules.type context true
  if ← eatsWord "as" then rules.type context true
  expectsMark "]"
  mappedModifier (.mark "?")
  if ← eatsMark ":" then rules.type context true
  semicolon
  expectsMark "\x7d"

/-- The first tokens of a text. -/
def tokens : Nat → List Char → List Token
  | 0, _ => []
  | count + 1, cs =>
    match next? cs with
    | some lexeme => lexeme.token :: tokens count lexeme.rest
    | none => []

/-- A mapped type begins with these tokens: a name ranges over a type in brackets. -/
def isMapped : List Token → Bool
  | .mark "+" :: .word "readonly" false :: rest => isRange rest
  | .mark "-" :: .word "readonly" false :: rest => isRange rest
  | .word "readonly" false :: rest => isRange rest
  | rest => isRange rest
where
  isRange : List Token → Bool
    | .mark "[" :: .word .. :: .word "in" false :: _ => true
    | _ => false

/-- A type without operators. -/
def simpleType : Reader Unit := do
  let lexeme ← peek
  match lexeme.token with
  | .string _ | .numeral _ => accept lexeme
  | .mark "-" =>
    accept lexeme
    match (← take).token with
    | .numeral _ => pure ()
    | _ => fails
  | .mark "(" =>
    accept lexeme
    rules.type context true
    expectsMark ")"
  | .mark "[" =>
    accept lexeme
    discard <| list "]" (tupleItem rules context)
  | .mark "\x7b" =>
    if isMapped (tokens 5 lexeme.rest) then
      accept lexeme
      mappedType rules context
    else signatures rules context
  | .mark "`" =>
    accept lexeme
    typeTemplate rules context (← remaining)
  | .word "typeof" false =>
    accept lexeme
    typeReference rules context
  | .word "new" false => fails
  | .word .. => typeReference rules context
  | _ => fails

/-- What may follow a simple type on its line: brackets of an array or around an index. -/
def typeSuffixes : Nat → Reader Unit
  | 0 => fails
  | fuel + 1 => do
    let lexeme ← peek
    if lexeme.token == .mark "[" && !lexeme.newline then
      accept lexeme
      unless ← eatsMark "]" do
        rules.type context true
        expectsMark "]"
      typeSuffixes fuel

/-- Words that stand before a type. -/
def typeOperators : List String := ["keyof", "unique", "readonly", "infer"]

/-- A type after any operators. -/
def operatorType : Nat → Reader Unit
  | 0 => fails
  | fuel + 1 => do
    let lexeme ← peek
    match lexeme.token with
    | .word text false =>
      if typeOperators.contains text then
        accept lexeme
        operatorType fuel
      else plain
    | _ => plain
where
  plain : Reader Unit := do
    simpleType rules context
    typeSuffixes rules context (← remaining)

/-- Types with a mark between them, which may also stand before the first. -/
def joinedTypes (mark : String) (part : Reader Unit) : Reader Unit := do
  discard <| eatsMark mark
  go (← remaining)
where
  go : Nat → Reader Unit
    | 0 => fails
    | fuel + 1 => do
      part
      if ← eatsMark mark then go fuel

/-- A type, which may be conditional. -/
def type (conditional : Bool) : Reader Unit := do
  joinedTypes "|" <| joinedTypes "&" do operatorType rules context (← remaining)
  let lexeme ← peek
  if conditional && lexeme.token == .word "extends" false && !lexeme.newline then
    accept lexeme
    rules.type context false
    expectsMark "?"
    rules.type context true
    expectsMark ":"
    rules.type context true

/-- An interface after its keyword: a name, what it extends, and its members. -/
def interface : Reader Unit := do
  discard <| identifier context
  if ← eatsWord "extends" then
    discard <| separated (typeReference rules context) (← remaining)
  signatures rules context

end CircuitScript.Formula
