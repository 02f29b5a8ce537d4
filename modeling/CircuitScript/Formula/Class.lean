import CircuitScript.Formula.Type
/-!
Classes and their members.
-/
namespace CircuitScript.Formula

open Reader

/-- A word before the name of a class member. -/
inductive Modifier
  | shared
  | asynchronous
  | accessor
  | constant
  | ambient
  | overriding
  | incomplete
  | exposed
  | guarded
  | hidden
  deriving DecidableEq, Repr

namespace Modifier

def all : List Modifier :=
  [shared, asynchronous, accessor, constant, ambient, overriding, incomplete, exposed, guarded,
   hidden]

def keyword : Modifier → String
  | shared => "static"
  | asynchronous => "async"
  | accessor => "accessor"
  | constant => "readonly"
  | ambient => "declare"
  | overriding => "override"
  | incomplete => "abstract"
  | exposed => "public"
  | guarded => "protected"
  | hidden => "private"

/-- The modifiers that say who may use a member. -/
def visibilities : List Modifier := [exposed, guarded, hidden]

/-- The modifiers that may stand before this one. Each stands once, and most have their place. -/
def mayFollow : Modifier → List Modifier
  | exposed | guarded | hidden => [ambient]
  | shared => [ambient] ++ visibilities
  | incomplete => [ambient, constant, exposed, guarded]
  | overriding => [shared, incomplete] ++ visibilities
  | constant => [shared, overriding, incomplete, ambient, asynchronous] ++ visibilities
  | accessor => [shared, overriding, incomplete, asynchronous] ++ visibilities
  | asynchronous => [shared, overriding, constant, accessor] ++ visibilities
  | ambient => [shared, incomplete, constant] ++ visibilities

/-- The modifiers of a field that is a pair of accessors. -/
def ofAccessor : List Modifier := [accessor, shared, incomplete, overriding] ++ visibilities

/-- The modifiers of any other field. -/
def ofField : List Modifier := [constant, ambient, shared, incomplete, overriding] ++ visibilities

/-- The modifiers of a member that gets or sets a value. -/
def ofAccess : List Modifier := [shared, incomplete, overriding] ++ visibilities

/-- The modifiers of a method. -/
def ofMethod : List Modifier := [asynchronous, shared, incomplete, overriding] ++ visibilities

/-- Takes a modifier, which is not itself the name and does not open a static block. -/
def next? (earlier : List Modifier) : Reader (Option Modifier) := do
  match (← peek).token with
  | .word text false =>
    match all.find? (·.keyword == text) with
    | some shared =>
      let opens := (← second?).any (·.token == .mark "\x7b")
      if opens || earlier.contains shared then return none
      else if ← eatsModifier text true then return some shared
      else return none
    | some modifier => if ← eatsModifier text false then return some modifier else return none
    | none => return none
  | _ => return none

/-- The modifiers of a member. -/
def read (earlier : List Modifier) : Nat → Reader (List Modifier)
  | 0 => fails
  | fuel + 1 => do
    match ← next? earlier with
    | some modifier =>
      require (earlier.all modifier.mayFollow.contains)
      read (modifier :: earlier) fuel
    | none => return earlier

end Modifier

/-- The modifiers are all among the allowed ones. -/
def allowsOnly (allowed modifiers : List Modifier) : Bool := modifiers.all allowed.contains

variable (rules : Rules) (context : Context)

/-- The name of a class member, which may be private. Only words and strings are given back, and the
constructor is never private. -/
def classMemberName : Reader (Option String) := do
  let lexeme ← peek
  match lexeme.token with
  | .privateWord text =>
    accept lexeme
    require (text != "constructor")
    return none
  | _ => memberName rules context

/-- A static member cannot be called `prototype`, and only one kind of member is a constructor. -/
def isMemberName (modifiers : List Modifier) (name : Option String) : Bool :=
  if modifiers.contains .shared then name != some "prototype" else name != some "constructor"

/-- The next tokens begin a constructor. -/
def seesConstructor : Reader Bool := do
  let named ← match (← peek).token with
    | .word text _ => pure (text == "constructor")
    | .string codes => pure (textOf? codes == some "constructor")
    | _ => pure false
  return named && (← second?).any (·.token == .mark "(")

/-- A field after its name, which ends like a statement. -/
def field (modifiers : List Modifier) (name : Option String) (optional : Bool) : Reader Unit := do
  let definite ← eatsMark "!"
  require !(optional && definite)
  require (name != some "constructor" && isMemberName modifiers name)
  if modifiers.contains .accessor then
    require (!optional && allowsOnly Modifier.ofAccessor modifiers)
  else require (allowsOnly Modifier.ofField modifiers)
  semicolon

/-- A field, or a method that is called, after its modifiers. -/
def fieldOrMethod (modifiers : List Modifier) : Reader Unit := do
  let generator ← eatsMark "*"
  let name ← classMemberName rules context
  let optional ← eatsMark "?"
  if generator || (← seesMark "(") then
    require (isMemberName modifiers name && allowsOnly Modifier.ofMethod modifiers)
    method rules context .call (modifiers.contains .asynchronous) generator
  else field modifiers name optional

/-- A member of a class. -/
def classMember : Reader Unit := do
  unless ← eatsMark ";" do
    let decorated ← decorators rules context (← remaining)
    let modifiers ← Modifier.read [] (← remaining)
    if (← seesWord "static") && (← second?).any (·.token == .mark "\x7b") then
      require (!decorated && modifiers.isEmpty)
      expectsWord "static"
      block rules { context.function true false with returns := false }
    else
      match ← eatsAccess with
      | .call =>
        if !modifiers.contains .shared && (← seesConstructor) then
          require (!decorated && allowsOnly Modifier.visibilities modifiers)
          discard <| memberName rules context
          method rules context .call false false
        else fieldOrMethod rules context modifiers
      | access =>
        let name ← classMemberName rules context
        require (isMemberName modifiers name && allowsOnly Modifier.ofAccess modifiers)
        method rules context access false false

/-- What a class extends and implements: each at most once, and in this order. -/
def heritage : Reader Unit := do
  if ← eatsWord "extends" then
    discard <| rules.operand { context with decorates := false }
    typeArguments rules context
  if ← eatsWord "implements" then
    discard <| separated (typeReference rules context) (← remaining)

/-- A class after its keyword. The name may be left out. -/
def classRest : Reader (Option String) := do
  let name ←
    if (← seesIdentifier) && !(← seesWord "implements") then some <$> identifier context
    else pure none
  heritage rules context
  expectsMark "\x7b"
  itemsUntil "\x7d" (classMember rules context) (← remaining)
  return name

end CircuitScript.Formula
