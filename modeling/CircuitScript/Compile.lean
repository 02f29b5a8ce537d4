import CircuitScript.Blueprint.Exchange
import CircuitScript.Layout.Lower
import CircuitScript.Script.Json
import CircuitScript.Script.Parser
/-!
From a script to a blueprint.
-/
namespace CircuitScript

/-- A compiled script: its blueprint, which lies around the origin, and what was noticed. -/
structure Compilation where
  blueprint : Blueprint
  events : List Event
  deriving Repr, Inhabited

namespace Lowering

/-- The blueprint of a layout, around the origin and with its label. -/
def finish (lowering : Lowering) (label : Option String) : Blueprint :=
  let centered := lowering.blueprint.center
  match label with
  | some text => centered.withLabel text
  | none => centered

end Lowering

namespace Compilation

/-- Compiles a script up to its blueprint. -/
def ofSource (source : String) (label : Option String) : Except Error Compilation := do
  let script ← Script.parse source
  let lowering := script.lower
  let blueprint := lowering.finish label
  let warnings := if lowering.blueprint.size = 0 then [Event.noEntities] else []
  return {
    blueprint
    events := .program (script.toJson.pretty 0) :: lowering.events ++ warnings ++
      [.outputs lowering.outputs, .entities blueprint.text] }

end Compilation

/-- Compiles a script to a blueprint string. -/
def compile (source : String) (label : Option String) : Except Error String := do
  (← Compilation.ofSource source label).blueprint.encode

end CircuitScript
