import CaptureAudit.Command.Similarity

/-! # Command line arguments

Two settings take a value, attached with `=` or as the next argument; two flags ask for a text
instead of a scan. The first fault on the line is the one that is reported. A detached value is
checked only when the next setting or flag, or the end, is reached.
-/
namespace CaptureAudit.Command

inductive Format where
  | text
  | json
  | yaml
  deriving DecidableEq, Repr

def Format.name : Format → String
  | text => "text"
  | json => "json"
  | yaml => "yaml"

def Format.all : List Format := [.text, .json, .yaml]

def Format.ofName? (name : String) : Option Format := Format.all.find? (·.name == name)

def defaultDirectory : String := "./grammars-themes/packages/tm-grammars/grammars"

structure Arguments where
  directory : String
  format : Format
  deriving DecidableEq, Repr

inductive Setting where
  | directory
  | format
  deriving DecidableEq, Repr

inductive Flag where
  | help
  | version
  deriving DecidableEq, Repr

inductive Known where
  | setting (setting : Setting)
  | flag (flag : Flag)
  deriving DecidableEq, Repr

namespace Known

def name : Known → String
  | setting .directory => "grammar-dir"
  | setting .format => "format"
  | flag .help => "help"
  | flag .version => "version"

def display : Known → String
  | setting .directory => "--grammar-dir <GRAMMAR_DIR>"
  | setting .format => "--format <FORMAT>"
  | flag .help => "--help"
  | flag .version => "--version"

def all : List Known :=
  [setting .directory, setting .format, flag .help, flag .version]

def ofName? (name : String) : Option Known := all.find? (·.name == name)

end Known

inductive UsageError where
  | missingValue (setting : Setting)
  | invalidFormat (value : String)
  | repeated (setting : Setting)
  /-- `used` are the options that the usage line names. -/
  | unexpected (argument : String) (similar : Option Known) (used : List Known)
  /-- A flag with a value attached to it; `afterSettings` if a setting was met before. -/
  | unexpectedValue (value : String) (flag : Flag) (afterSettings : Bool)
  deriving DecidableEq, Repr

inductive Request where
  | scan (arguments : Arguments)
  | help
  | version
  deriving DecidableEq, Repr

def Flag.request : Flag → Request
  | help => .help
  | version => .version

structure Reading where
  met : List Setting
  directory : Option String
  format : Option Format
  /-- A setting whose value may follow, and the value if it has. -/
  pending : Option (Setting × Option String)
  deriving DecidableEq, Repr

namespace Reading

def start : Reading := ⟨[], none, none, none⟩

def assign (reading : Reading) (setting : Setting) (value : String) :
    Except UsageError Reading :=
  if value = "" then .error (.missingValue setting)
  else match setting with
    | .directory => .ok { reading with directory := some value }
    | .format =>
      match Format.ofName? value with
      | some format => .ok { reading with format := some format }
      | none => .error (.invalidFormat value)

def meet (reading : Reading) (setting : Setting) (value : Option String) :
    Except UsageError Reading :=
  match value with
  | none => .error (.missingValue setting)
  | some value =>
    if reading.met.contains setting then .error (.repeated setting)
    else { reading with met := reading.met ++ [setting] }.assign setting value

def settle (reading : Reading) : Except UsageError Reading :=
  match reading.pending with
  | none => .ok reading
  | some (setting, value) => { reading with pending := none }.meet setting value

def await (reading : Reading) (setting : Setting) : Reading :=
  { reading with pending := some (setting, none) }

def hold (reading : Reading) (setting : Setting) (value : String) : Reading :=
  { reading with pending := some (setting, some value) }

/-- The options met so far, for a usage line; the pending setting counts if it could be met, even
with a value that is not valid. One that was met twice does not count. -/
def used (reading : Reading) : List Known :=
  let settings := match reading.pending with
    | some (setting, some _) =>
      if reading.met.contains setting then reading.met.filter (· != setting)
      else reading.met ++ [setting]
    | _ => reading.met
  settings.map .setting

def unknownOption (reading : Reading) (name : String) : UsageError :=
  match (suggest? name (Known.all.map Known.name)).bind Known.ofName? with
  | some similar =>
    let used := reading.used
    .unexpected ("--" ++ name) (some similar)
      (if used.contains similar then used else used ++ [similar])
  | none => .unexpected ("--" ++ name) none reading.used

def finish (reading : Reading) : Except UsageError Request := do
  let reading ← reading.settle
  return .scan ⟨reading.directory.getD defaultDirectory, reading.format.getD .text⟩

end Reading

def splitOption (text : List Char) : String × Option String :=
  match text.dropWhile (· != '=') with
  | [] => (String.ofList text, none)
  | _ :: value => (String.ofList (text.takeWhile (· != '=')), some (String.ofList value))

inductive Form where
  /-- Two dashes alone: no options follow. -/
  | endOfOptions
  | long (name : String) (value : Option String)
  /-- One dash and the first of the letters after it. -/
  | short (letter : Char)
  | value
  deriving DecidableEq, Repr

def formOf (argument : String) : Form :=
  match argument.toList with
  | ['-', '-'] => .endOfOptions
  | '-' :: '-' :: rest => let (name, value) := splitOption rest; .long name value
  | '-' :: letter :: _ => .short letter
  | _ => .value

def Reading.read (reading : Reading) : List String → Except UsageError Request
  | [] => reading.finish
  | argument :: rest =>
    match formOf argument with
    | .endOfOptions =>
      match rest with
      | [] => reading.finish
      | next :: _ => .error (.unexpected next none [])
    | .long name value =>
      match Known.ofName? name with
      | some (.setting setting) => do
        let reading ← reading.settle
        match value with
        | some value => (← reading.meet setting (some value)).read rest
        | none => (reading.await setting).read rest
      | some (.flag flag) =>
        match value with
        | some value => .error (.unexpectedValue value flag !reading.met.isEmpty)
        | none => do
          let _ ← reading.settle
          return flag.request
      | none => .error (reading.unknownOption name)
    | .short letter =>
      if letter = 'h' || letter = 'V' then do
        let _ ← reading.settle
        return (if letter = 'h' then .help else .version)
      else .error (.unexpected (String.ofList ['-', letter]) none [])
    | .value =>
      match reading.pending with
      | some (setting, none) => (reading.hold setting argument).read rest
      | _ => .error (.unexpected argument none [])

def parseArguments (arguments : List String) : Except UsageError Request :=
  Reading.start.read arguments

end CaptureAudit.Command
