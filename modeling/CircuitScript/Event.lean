import CircuitScript.Blueprint.Entity
/-!
What a run reports besides its result, in order.
-/
namespace CircuitScript

inductive Event
  /-- Two entities cover one tile; the entity registered last is found there. -/
  | overlap (tile : Position) (entity other : EntityId)
  | lowering (construct : String) (depth : Nat) (inColor outColor : Color)
  | program (json : String)
  | noEntities
  | outputs (ids : List EntityId)
  | entities (listing : String)
  deriving DecidableEq, Repr, Inhabited

namespace Event

/-- Numbers in brackets. -/
def listText (ids : List Nat) : String :=
  "[" ++ String.intercalate ", " (ids.map toString) ++ "]"

/-- The event as a line of a log, with its level. -/
def text : Event → String
  | overlap tile entity other =>
    "WARN entities overlap at " ++ tile.text ++ " entity=" ++ toString entity ++ " other=" ++
      toString other
  | lowering construct depth inColor outColor =>
    "DEBUG lowering kind=" ++ construct ++ " depth=" ++ toString depth ++ " in_color=" ++
      inColor.text ++ " out_color=" ++ outColor.text
  | program json => "DEBUG parsed program = " ++ json
  | noEntities => "WARN script produced no entities"
  | outputs ids => "DEBUG top-level outputs outputs=" ++ listText ids
  | entities listing => "DEBUG entities:\n" ++ listing

/-- The event is a warning, not a detail. -/
def isWarning : Event → Bool
  | overlap .. | noEntities => true
  | _ => false

end Event

end CircuitScript
