import Reckoner.Config.Document
import Reckoner.Files
import Reckoner.Function.Number
import Reckoner.Value.Format

namespace Reckoner

abbrev Config := List (String × HostValue)

namespace Config

def fileName : String := "pwcalc.yaml"

def defaults : Config := [
    ("prefer_decimal", .bool false),
    ("output_base", .integer 10),
    ("variables", .mapping []),
    ("history_size", .integer 100),
    ("logging_enabled", .bool true),
    ("logging_fsync", .bool false),
    ("logging_tail_bytes", .integer 2097152)]

def starter : String :=
  "# pwcalc project configuration\n" ++
  "prefer_decimal: false\n" ++
  "output_base: 10\n" ++
  "history_size: 100\n" ++
  "\n" ++
  "# Preset variables, readable from every formula.\n" ++
  "variables:\n" ++
  "  rate: 0.19\n" ++
  "\n" ++
  "logging:\n" ++
  "  enabled: true\n" ++
  "  fsync: false\n"

inductive Fault
  | notMapping
  | malformed
  | invalidBase (v : HostValue)
  | unsupportedBase (base : Int)
  | variablesNotMapping
  | number (e : Error)
  | file (fault : FileFault)
  deriving BEq, Repr, Inhabited

def Fault.message : Fault → String
  | notMapping => fileName ++ " must contain a mapping"
  | malformed => "malformed " ++ fileName
  | invalidBase v => "Invalid output_base: " ++ v.innerText
  | unsupportedBase base =>
    "Invalid output_base: " ++ Text.intText base ++ " (expected one of 2, 8, 10, 16)"
  | variablesNotMapping => "variables must be a mapping of names to values"
  | number e => e.message
  | file fault => fault.message ""

def loggingKeys : List String := ["enabled", "fsync", "tail_bytes"]

def flattenLogging (config : Config) : Config :=
  let rest := Entries.erase "logging" config
  match config.lookup "logging" with
  | some (.mapping block) =>
    loggingKeys.foldl (fun c key =>
      match block.lookup key with
      | some v => Entries.put ("logging_" ++ key) v c
      | none => c) rest
  | _ => rest

def ofDocument : HostValue → Except Fault Config
  | .mapping entries => .ok entries
  | v => if v.isTruthy then .error .notMapping else .ok []

def get (config : Config) (key : String) : HostValue := (config.lookup key).getD .none

def baseOf (v : HostValue) : Except Fault Int :=
  match v.asWhole with
  | .ok n => .ok n
  | .error (.range fault) => .error (.number (.range fault))
  | .error _ => .error (.invalidBase v)

def checked (config : Config) : Except Fault Config := do
  let base ← baseOf (config.get "output_base")
  if base ∉ Value.supportedBases then throw (.unsupportedBase base)
  let presets : HostValue ← match config.get "variables" with
    | .none => pure (.mapping [])
    | .mapping es => pure (.mapping es)
    | _ => throw .variablesNotMapping
  return Entries.put "variables" presets (Entries.put "output_base" (.integer base) config)

def ofText (s : String) : Except Fault Config := do
  match document? s with
  | none => throw .malformed
  | some v => checked (Entries.update defaults (flattenLogging (← ofDocument v)))

def load (files : Files) (directory : Path) : Except Fault Config :=
  let path := directory ++ [fileName]
  match files.node? path with
  | none => checked defaults
  | some .directory => .error (.file (.isDirectory path))
  | some (.file content) => ofText content

/-- The configuration of a project directory as it is written; one that leads nowhere has no
    file. -/
def loadFrom (files : Files) (base : Path) (directory : String) : Except Fault Config :=
  match files.locate? base directory with
  | some path => load files path
  | none => checked defaults

inductive ScaffoldFault
  | exists (directory : Path)
  | file (fault : FileFault)
  deriving DecidableEq, Repr, Inhabited

def ScaffoldFault.message (root : String) : ScaffoldFault → String
  | .exists directory => fileName ++ " already exists in " ++ directory.display root
  | file fault => fault.message root

def scaffold (directory : Path) : ExceptT ScaffoldFault (StateM Files) Path := do
  let path := directory ++ [fileName]
  (Files.makeDirectories directory).adapt .file
  if (← getThe Files).exists? path then throw (.exists directory)
  (Files.write path starter).adapt .file
  return path

end Config

end Reckoner
