import CircuitScript.Cli.Arguments
import CircuitScript.Compile
/-!
What the program does for a command line, given the files it may read.
-/
namespace CircuitScript.Cli

/-- The content of a file, or why it can not be read. -/
abbrev Files := String → Except String String

/-- What a run of the program ends in. -/
inductive Outcome
  /-- The arguments are not run. -/
  | refused (fault : ArgumentFault)
  | failed (error : Error)
  /-- The text for the standard output. -/
  | printed (text : String)
  deriving DecidableEq, Repr, Inhabited

/-- The version of the program. -/
def versionText : String := "combilogica 0.1.0\n"

def helpText : String :=
  "Compile a combilogica script into a blueprint string\n\nUsage: combilogica [OPTIONS]\n\n" ++
  "Options:\n" ++
  "  -s, --script <SCRIPT>  Script to compile\n" ++
  "      --decode <DECODE>  " ++
  "List the entities of an existing blueprint string instead of compiling\n" ++
  "  -d, --debug            Log the parsed program and the entity listing\n" ++
  "  -l, --label <LABEL>    Blueprint label\n" ++
  "  -h, --help             Print help\n" ++
  "  -V, --version          Print version\n"

def ArgumentFault.text : ArgumentFault → String
  | missingRequired => "the following required arguments were not provided: --script <SCRIPT>"
  | conflict => "an argument cannot be used with one that is already given"
  | unknown => "unexpected argument found"
  | invalidValue => "a value is required but none was supplied"
  | tooManyValues => "unexpected value for an option that takes none"
  | help => helpText
  | version => versionText

namespace Outcome

def code : Outcome → Nat
  | refused .help | refused .version | printed _ => 0
  | failed _ => 1
  | refused _ => 2

def output : Outcome → String
  | refused .help => helpText
  | refused .version => versionText
  | printed text => text
  | _ => ""

/-- The line that says why the run failed. -/
def errorLine? : Outcome → Option String
  | failed error => some ("Error: " ++ error.message)
  | refused .help | refused .version | printed _ => none
  | refused fault => some ("error: " ++ fault.text)

end Outcome

def readFile (files : Files) (path : String) : Except Error String :=
  match files path with
  | .ok text => .ok text
  | .error reason => .error (.unreadable path reason)

/-- Lists a blueprint string, or compiles a script: the text to print and what was noticed. -/
def perform (files : Files) (arguments : Arguments) : Except Error (String × List Event) :=
  match arguments.decode, arguments.script with
  | some path, _ => do
    let (blueprint, events) ← Blueprint.decode (← readFile files path)
    return (blueprint.text, events)
  | none, some path => do
    let compilation ← Compilation.ofSource (← readFile files path) arguments.label
    return ((← compilation.blueprint.encode) ++ "\n", compilation.events)
  | none, none => return ("", [])

/-- The events that are logged: warnings, and details on demand. -/
def logged (arguments : Arguments) (events : List Event) : List Event :=
  events.filter fun event => arguments.debug || event.isWarning

/-- Runs a command line. -/
def run (files : Files) (words : List String) : Outcome × List Event :=
  match Arguments.parse words with
  | .error fault => (.refused fault, [])
  | .ok arguments =>
    match perform files arguments with
    | .ok (text, events) => (.printed text, logged arguments events)
    | .error error => (.failed error, [])

end CircuitScript.Cli
