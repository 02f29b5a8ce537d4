import CircuitScript.Blueprint.Decode
import CircuitScript.Blueprint.Format
import CircuitScript.Codec.Base64
import CircuitScript.Codec.Zlib
import CircuitScript.Json.Reader
import CircuitScript.Json.Writer
import CircuitScript.Text.Blank
/-!
Blueprint strings, in which blueprints are exchanged: a version digit, then the description,
compressed and written in base64.
-/
namespace CircuitScript

/-- The first character of a blueprint string. -/
def exchangeVersion : Char := '0'

/-- Packs a description into a blueprint string. -/
def packDescription (json : String) : String :=
  String.ofList (exchangeVersion :: Base64.encode (Zlib.compress json.toUTF8.toList))

/-- The description in a blueprint string. Blanks around the string are ignored. -/
def unpackDescription (encoded : String) : Except Error String := do
  let payload ←
    match Text.trim encoded.toList with
    | c :: rest => if c = exchangeVersion then pure rest else throw (.blueprint .version)
    | [] => throw (.blueprint .version)
  let some compressed := Base64.decode? payload | throw .base64
  let some bytes := Zlib.decompress? compressed | throw .compression
  let some text := String.fromUTF8? ⟨bytes.toArray⟩ | throw .compression
  return text

namespace Blueprint

/-- The description of a blueprint as a text. -/
def describe (blueprint : Blueprint) : Except Error String := return (← blueprint.toJson).render

/-- The blueprint of a description, and what was noticed on the way. -/
def ofDescription (json : String) : Except Error (Blueprint × List Event) :=
  match (Json.parse? json.toList).bind BlueprintRecord.ofJson? with
  | some record => ofRecord record
  | none => .error .json

/-- The blueprint string of a blueprint. -/
def encode (blueprint : Blueprint) : Except Error String :=
  return packDescription (← blueprint.describe)

/-- The blueprint of a blueprint string, and what was noticed on the way. -/
def decode (encoded : String) : Except Error (Blueprint × List Event) := do
  ofDescription (← unpackDescription encoded)

end Blueprint

end CircuitScript
