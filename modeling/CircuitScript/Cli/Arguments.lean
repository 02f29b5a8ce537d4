/-!
Reading the arguments of the command line.
-/
namespace CircuitScript.Cli

/-- What a command line asks for. -/
structure Arguments where
  /-- The script to compile. -/
  script : Option String
  /-- The blueprint string to list. -/
  decode : Option String
  debug : Bool
  label : Option String
  deriving DecidableEq, Repr, Inhabited

/-- Why a command line is not run. -/
inductive ArgumentFault
  /-- There is neither a script nor a blueprint string. -/
  | missingRequired
  /-- Two options exclude each other, or one is given twice. -/
  | conflict
  | unknown
  /-- A value is missing, or a path is empty. -/
  | invalidValue
  /-- A value is attached to an option that takes none. -/
  | tooManyValues
  /-- The help was asked for. -/
  | help
  /-- The version was asked for. -/
  | version
  deriving DecidableEq, Repr, Inhabited

/-- An option that takes a value. -/
inductive Setting
  | script | decode | label
  deriving DecidableEq, Repr, Inhabited

/-- An option that takes no value. -/
inductive Switch
  | debug | help | version
  deriving DecidableEq, Repr, Inhabited

/-- An option. -/
inductive Choice
  | setting (setting : Setting)
  | switch (switch : Switch)
  deriving DecidableEq, Repr, Inhabited

namespace Choice

/-- The option of a long name. -/
def ofLong? : String → Option Choice
  | "script" => some (setting .script)
  | "decode" => some (setting .decode)
  | "label" => some (setting .label)
  | "debug" => some (switch .debug)
  | "help" => some (switch .help)
  | "version" => some (switch .version)
  | _ => none

/-- The option of a letter. -/
def ofShort? : Char → Option Choice
  | 's' => some (setting .script)
  | 'l' => some (setting .label)
  | 'd' => some (switch .debug)
  | 'h' => some (switch .help)
  | 'V' => some (switch .version)
  | _ => none

end Choice

namespace Arguments

def none : Arguments := ⟨.none, .none, false, .none⟩

def get? (arguments : Arguments) : Setting → Option String
  | .script => arguments.script
  | .decode => arguments.decode
  | .label => arguments.label

def put (arguments : Arguments) (value : String) : Setting → Arguments
  | .script => { arguments with script := some value }
  | .decode => { arguments with decode := some value }
  | .label => { arguments with label := some value }

/-- Takes a setting with its value, if it has one. -/
def accept (arguments : Arguments) (setting : Setting) :
    Option String → Except ArgumentFault Arguments
  | .none => .error .invalidValue
  | some value =>
    if (arguments.get? setting).isSome then .error .conflict
    else if value.isEmpty ∧ setting ≠ .label then .error .invalidValue
    else .ok (arguments.put value setting)

end Arguments

/-- How far the arguments are read. -/
structure ArgumentReading where
  found : Arguments
  /-- The last setting that was named, and its value once that has come. It is taken only when the
  next option follows. -/
  pending : Option (Setting × Option String)
  deriving DecidableEq, Repr, Inhabited

namespace ArgumentReading

/-- Takes the setting that is pending. -/
def settle (reading : ArgumentReading) : Except ArgumentFault Arguments :=
  match reading.pending with
  | some (setting, value) => reading.found.accept setting value
  | none => .ok reading.found

/-- Reads an option without a value. -/
def flip (reading : ArgumentReading) (switch : Switch) : Except ArgumentFault ArgumentReading := do
  let found ← reading.settle
  match switch with
  | .debug => if found.debug then throw .conflict else return ⟨{ found with debug := true }, none⟩
  | .help => throw .help
  | .version => throw .version

/-- Reads a setting with the value that is attached to it. -/
def attach (reading : ArgumentReading) (setting : Setting) (value : String) :
    Except ArgumentFault ArgumentReading := do
  return ⟨← (← reading.settle).accept setting (some value), none⟩

/-- Reads a setting whose value is to follow. -/
def name (reading : ArgumentReading) (setting : Setting) :
    Except ArgumentFault ArgumentReading := do
  return ⟨← reading.settle, some (setting, none)⟩

/-- Reads `--name` or `--name=value`. -/
def long (reading : ArgumentReading) (text : List Char) : Except ArgumentFault ArgumentReading :=
  match Choice.ofLong? (String.ofList (text.takeWhile (· != '='))), text.dropWhile (· != '=') with
  | none, _ => .error .unknown
  | some (.setting setting), _ :: value => reading.attach setting (String.ofList value)
  | some (.setting setting), [] => reading.name setting
  | some (.switch _), _ :: _ => .error .tooManyValues
  | some (.switch switch), [] => reading.flip switch

/-- Reads the letters behind a hyphen. The first setting among them takes what is left as its
value, without an equality sign at its start. -/
def short (reading : ArgumentReading) : List Char → Except ArgumentFault ArgumentReading
  | [] => .ok reading
  | c :: rest =>
    match Choice.ofShort? c, rest with
    | none, _ => .error .unknown
    | some (.switch switch), rest => do (← reading.flip switch).short rest
    | some (.setting setting), [] => reading.name setting
    | some (.setting setting), '=' :: value => reading.attach setting (String.ofList value)
    | some (.setting setting), value => reading.attach setting (String.ofList value)

/-- Reads a word that is no option: only the value of a pending setting can be meant. -/
def plain (reading : ArgumentReading) (word : String) : Except ArgumentFault ArgumentReading :=
  match reading.pending with
  | some (setting, none) => .ok { reading with pending := some (setting, some word) }
  | _ => .error .unknown

/-- Reads one argument. -/
def argument (reading : ArgumentReading) (word : String) : Except ArgumentFault ArgumentReading :=
  match word.toList with
  | '-' :: '-' :: text => reading.long text
  | ['-'] => reading.plain word
  | '-' :: letters => reading.short letters
  | _ => reading.plain word

/-- Reads all arguments. Nothing may follow two hyphens. -/
def all (reading : ArgumentReading) : List String → Except ArgumentFault ArgumentReading
  | [] => .ok reading
  | ["--"] => .ok reading
  | "--" :: _ => .error .unknown
  | word :: rest => do (← reading.argument word).all rest

end ArgumentReading

namespace Arguments

/-- Reads the arguments and checks that they ask for one thing. -/
def parse (words : List String) : Except ArgumentFault Arguments := do
  let found ← (← (ArgumentReading.mk .none .none).all words).settle
  match found.script, found.decode with
  | some _, some _ => throw .conflict
  | .none, .none => throw .missingRequired
  | _, _ => return found

end Arguments

end CircuitScript.Cli
