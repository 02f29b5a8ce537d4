import CircuitScript.Formula.Declaration
/-!
Imports and exports.
-/
namespace CircuitScript.Formula

open Reader

variable (rules : Rules) (context : Context)

/-- An attribute of a module's source. -/
def sourceAttribute : Reader Unit := do
  match (← take).token with
  | .word .. | .string _ => pure ()
  | _ => fails
  expectsMark ":"
  discard expectsString

/-- The attributes of a module's source, if there are any. -/
def sourceAttributes : Reader Unit := do
  let lexeme ← peek
  let opens := match lexeme.token with
    | .word "with" false => true
    | .word "assert" false => !lexeme.newline
    | _ => false
  if opens then
    accept lexeme
    expectsMark "\x7b"
    discard <| list "\x7d" sourceAttribute

/-- The source of an import or export. -/
def moduleSource : Reader Unit := do
  discard expectsString
  sourceAttributes
  semicolon

/-- A name that a module gives to something. -/
inductive ExternalName
  | word (text : String)
  | string (text : String)
  deriving DecidableEq, Repr

namespace ExternalName

def text : ExternalName → String
  | word text | string text => text

def read : Reader ExternalName := do
  match (← take).token with
  | .word text _ => return word text
  | .string codes => return string (← StateT.lift (textOf? codes))
  | _ => fails

/-- Words that a module cannot declare, though other texts can. -/
def strictWords : List String :=
  ["await", "implements", "interface", "let", "package", "private", "protected", "public", "static",
   "yield"]

/-- The name can be one of the module's own. -/
def isLocal : ExternalName → Bool
  | word text => !(Context.isReserved text || strictWords.contains text)
  | string _ => false

end ExternalName

/-- A name in the list of an import, and the name it is given, which must be able to name
something. -/
def importedName : Reader Unit := do
  let lexeme ← peek
  let name ← ExternalName.read
  if ← eatsWord "as" then discard <| identifier context
  else
    match lexeme.token with
    | .word .. => require (context.allows name.text)
    | _ => fails

/-- The names of an import, up to its source. -/
def importedNames : Reader Unit := do
  if ← eatsMark "*" then
    expectsWord "as"
    discard <| identifier context
  else
    expectsMark "\x7b"
    discard <| list "\x7d" (importedName context)

/-- An import after its keyword. It may load only the source of a module, or defer its work. -/
def importRest : Reader Unit := do
  let lexeme ← peek
  let next := next? lexeme.rest
  match lexeme.token with
  | .string _ => moduleSource
  | .word text escaped =>
    let sourceOnly := text == "source" && !escaped && next.any fun next =>
      match next.token with
      | .word "from" false => (next? next.rest).any (·.token == .word "from" false)
      | .word name _ => !Context.isReserved name
      | _ => false
    let deferred := text == "defer" && !escaped && next.any (·.token == .mark "*")
    if sourceOnly then
      accept lexeme
      discard <| identifier context
    else if deferred then
      accept lexeme
      importedNames context
    else
      discard <| identifier context
      if ← eatsMark "," then importedNames context
    expectsWord "from"
    moduleSource
  | _ =>
    importedNames context
    expectsWord "from"
    moduleSource

/-- A name in the list of an export, and the name it is given. -/
def exportedName : Reader ExternalName := do
  let name ← ExternalName.read
  let given ← if ← eatsWord "as" then ExternalName.read else pure name
  exports given.text
  return name

/-- The source of a list of exports, if there is one. -/
def optionalSource : Reader Bool := do
  if ← eatsWord "from" then
    match (← peek).token with
    | .string _ | .numeral _ | .word "null" _ | .word "true" _ | .word "false" _ =>
      discard expectsString
      sourceAttributes
      return true
    | _ => return false
  else return false

/-- A list of exports after its opening brace. Names of the module itself must be able to be
declared. -/
def exportedNames : Reader Unit := do
  let (names, _) ← list "\x7d" exportedName
  unless ← optionalSource do require (names.all (·.isLocal))
  semicolon

/-- An export of everything, after its star. -/
def exportedAll : Reader Unit := do
  if ← eatsWord "as" then exports (← ExternalName.read).text
  expectsWord "from"
  moduleSource

/-- A default export after that word. -/
def defaultExport (decorated : Bool) : Reader Unit := do
  let lexeme ← peek
  let next := next? lexeme.rest
  let follows := fun (token : Token) => next.any fun next => next.token == token && !next.newline
  let isInterface := lexeme.token == .word "interface" false && next.any fun next =>
    !next.newline && next.token matches .word ..
  if isInterface then
    require !decorated
    accept lexeme
    interface rules context
  else
    exports "default"
    if lexeme.token == .mark "@" then
      require !decorated
      discard <| decoratedClass rules context
    else if lexeme.token == .word "class" false then
      accept lexeme
      discard <| classRest rules context
    else if lexeme.token == .word "abstract" false && follows (.word "class" false) then
      accept lexeme
      expectsWord "class"
      discard <| classRest rules context
    else
      require !decorated
      if lexeme.token == .word "function" false then
        accept lexeme
        discard <| function rules context false true
      else if beginsAsyncFunction lexeme then
        accept lexeme
        expectsWord "function"
        discard <| function rules context true true
      else
        discard <| rules.assignment context
        semicolon

/-- A declaration that is exported. -/
def exportedDeclaration (decorated : Bool) : Reader Unit := do
  let lexeme ← peek
  if lexeme.token == .mark "@" then
    require !decorated
    for name in (← decoratedClass rules context).toList do exports name
  else if lexeme.token == .word "class" false then
    accept lexeme
    for name in (← classRest rules context).toList do exports name
  else
    require !decorated
    accept lexeme
    if lexeme.token == .word "var" false || lexeme.token == .word "let" false then
      for name in ← declaredNames context do exports name
    else if lexeme.token == .word "function" false then
      exports (← declaredFunction rules context .listed false)
    else
      require (beginsAsyncFunction lexeme)
      expectsWord "function"
      exports (← declaredFunction rules context .listed true)

/-- An export after its keyword. The flag says whether decorators stand before it, which belong to a
class. -/
def exportRest (decorated : Bool) : Reader Unit := do
  if ← eatsWord "default" then defaultExport rules context decorated
  else if ← eatsMark "*" then
    require !decorated
    exportedAll
  else if ← eatsMark "\x7b" then
    require !decorated
    exportedNames
  else exportedDeclaration rules context decorated

end CircuitScript.Formula
