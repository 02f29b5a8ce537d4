import CircuitScript.Error
import CircuitScript.Names
/-!
Naming state of a block: the aliases in force and the scratch signals handed out so far. A nested
block works on its own copy, so what it binds or reserves is never seen outside.
-/
namespace CircuitScript

structure Scope where
  /-- What each alias stands for. -/
  aliases : NameMap
  /-- Scratch signals in use. -/
  reserved : NameSet
  deriving DecidableEq, Repr, Inhabited

namespace Scope

def empty : Scope := ⟨.empty, .empty⟩

/-- The scope of a whole script, where `@` stands for every signal. -/
def root : Scope := ⟨Dict.empty.insert "@" each, .empty⟩

/-- The signal a name stands for. Aliases are followed once. -/
def resolve (scope : Scope) (name : String) : String := (scope.aliases.get? name).getD name

/-- The name is in use, as a scratch signal or on either side of an alias. -/
def isTaken (scope : Scope) (name : String) : Bool :=
  scope.reserved.contains name || scope.aliases.hasKey name || scope.aliases.hasValue name

/-- Makes `word` stand for whatever `target` stands for now. A scratch signal has no second name. -/
def bind (scope : Scope) (word target : String) : Except Error Scope :=
  let canonical := scope.resolve target
  if scope.reserved.contains canonical then
    .error (.structural (.aliasOfScratch word canonical) none)
  else
    .ok { scope with aliases := scope.aliases.insert word canonical }

/-- The scratch signal that would be handed out next. -/
def nextScratch? (scope : Scope) (avoid : NameSet) : Option String :=
  scratchSignals.find? fun name => !scope.isTaken name && !avoid.contains name

/-- Hands out a scratch signal that is neither taken nor to be avoided. -/
def allocate (scope : Scope) (avoid : NameSet) : Except Error (String × Scope) :=
  match scope.nextScratch? avoid with
  | some name => .ok (name, { scope with reserved := scope.reserved.insert name })
  | none => .error (.exhausted scratchSignals.length none)

end Scope

/-- A computation that may reserve scratch signals. What was reserved before a failure stays
reserved. -/
abbrev Scratch := ExceptT Error (StateM Scope)

namespace Scratch

/-- Runs a computation in a scope: its outcome, and the scope afterwards. -/
def runIn {α : Type} (action : Scratch α) (scope : Scope) : Except Error α × Scope :=
  action.run scope

/-- Reserves the next scratch signal that is not to be avoided. -/
def fresh (avoid : NameSet) : Scratch String := do
  match (← get).allocate avoid with
  | .ok (name, scope) =>
    set scope
    return name
  | .error error => throw error

end Scratch

end CircuitScript
