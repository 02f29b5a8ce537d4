import CircuitScript.Json.Basic
import CircuitScript.Script.Node
/-!
Programs as JSON, for inspection.
-/
namespace CircuitScript

def Operand.toJson : Operand → Json
  | signal name => .text name
  | constant value => .int value.toInt

def Scope.toJson (scope : Scope) : Json :=
  .ofMembers
    [("alias", .ofMembers (scope.aliases.entries.map fun (word, target) => (word, .text target))),
     ("reserved", .array (scope.reserved.toList.map .text))]

def Step.fields (step : Step) : List (String × Json) :=
  [("left", step.left.toJson), ("operator", .text step.op.symbol), ("right", step.right.toJson),
   ("out", .text step.out)]

mutual

def Node.toJson : Node → Json
  | .chain scope body => .ofMembers
    [("type", .text "chain"), ("scope", scope.toJson), ("body", .array (bodyJson body))]
  | .parallel scope body => .ofMembers
    [("type", .text "parallel"), ("scope", scope.toJson), ("body", .array (bodyJson body))]
  | .series scope body => .ofMembers
    [("type", .text "series"), ("scope", scope.toJson), ("body", .array (bodyJson body))]
  | .conditional loops scope test out body => .ofMembers
    [("type", .text "if"), ("is_while", .bool loops), ("scope", scope.toJson),
     ("expr", test.toJson), ("out", .text out), ("body", .array (bodyJson body))]
  | .compare op negated left right out => .ofMembers
    [("type", .text "compare"), ("operator", .text op.symbol), ("not", .bool negated),
     ("left", left.toJson), ("right", right.toJson), ("out", .text out)]
  | .and negated body out => .ofMembers
    [("type", .text "and"), ("not", .bool negated), ("body", .array (bodyJson body)),
     ("out", .text out)]
  | .or negated body out => .ofMembers
    [("type", .text "or"), ("not", .bool negated), ("body", .array (bodyJson body)),
     ("out", .text out)]
  | .step step => .ofMembers (("type", .text "variable") :: step.fields)

def Side.toJson : Side → Json
  | .value operand => operand.toJson
  | .series scope body => .ofMembers
    [("scope", scope.toJson), ("body", .array (bodyJson body))]

def bodyJson : List Node → List Json
  | [] => []
  | node :: rest => node.toJson :: bodyJson rest

end

def Script.toJson (script : Script) : Json :=
  .ofMembers [("scope", script.scope.toJson), ("body", .array (bodyJson script.body))]

end CircuitScript
