import CircuitScript.Cli.Run
/-!
The command line program.
-/
namespace CircuitScript.Cli

/-- The reason why a file can not be read. -/
def reasonText : IO.Error → String
  | .noFileOrDirectory .. => "No such file or directory (os error 2)"
  | error => toString error

/-- Reads the file that the arguments name, if they name one. -/
def namedFile (words : List String) : IO (Except String String) := do
  match Arguments.parse words with
  | .ok arguments =>
    let path := (arguments.decode <|> arguments.script).getD ""
    try return .ok (← IO.FS.readFile path)
    catch error => return .error (reasonText error)
  | .error _ => return .error ""

end CircuitScript.Cli

open CircuitScript.Cli in
def main (words : List String) : IO UInt32 := do
  let content ← namedFile words
  let (outcome, events) := run (fun _ => content) words
  for event in events do
    IO.eprintln event.text
  IO.print outcome.output
  if let some line := outcome.errorLine? then IO.eprintln line
  return outcome.code.toUInt32
