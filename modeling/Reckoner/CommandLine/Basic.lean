import Reckoner.CommandLine.Arguments
import Reckoner.CommandLine.Repl
import Reckoner.Json.Host

namespace Reckoner.CommandLine

inductive Crash
  | error (e : Error)
  | config (fault : Config.Fault)
  | file (fault : FileFault)
  | read (fault : ReadFault)
  deriving BEq, Repr, Inhabited

/-- How a command ends: with a status, with a reminder of its usage, or with a crash. -/
inductive Ending
  | status (code : Nat)
  | usage
  | help
  | crash (c : Crash)
  deriving BEq, Repr, Inhabited

structure Outcome where
  output : String
  errors : String
  ending : Ending
  deriving BEq, Repr, Inhabited

namespace Outcome

def linesText (ls : List String) : String := String.join (ls.map (· ++ "\n"))

def ok (ls : List String) : Outcome := ⟨linesText ls, "", .status 0⟩

def usage : Outcome := ⟨"", "", .usage⟩

def crash (c : Crash) : Outcome := ⟨"", "", .crash c⟩

def failure (message : String) : Outcome := ⟨"", linesText ["Error: " ++ message], .status 1⟩

def fault (text : String) (e : ParseError) : Outcome :=
  ⟨"", linesText (faultLines text e), .status 2⟩

def ofError (mark : String) (e : Error) : Outcome :=
  if e.isEngine then failure (mark ++ e.message) else crash (.error e)

end Outcome

structure Setting where
  directory : Path
  root : String
  sessionId : String
  deriving Repr, Inhabited

inductive Progress
  | done (outcome : Outcome)
  | dialogue (s : Session)
  deriving Inhabited

abbrev Command (α : Type) := ExceptT Outcome InProject α

def version : String := "pwcalc, version 0.3.0"

def existing? (setting : Setting) (files : Files) (arg : String) : Option Path :=
  if arg.isEmpty then none else files.locate? setting.directory arg

def configure (project : Option Path) : Command Config := do
  match project with
  | none =>
    Project.detach
    return Config.defaults
  | some directory =>
    let config ← match Config.load (← getThe Project).files directory with
      | .ok config => pure config
      | .error (.number e) => throw (.crash (.error e))
      | .error (.file fault) => throw (.crash (.file fault))
      | .error .malformed => throw (.crash (.config .malformed))
      | .error fault => throw (.failure fault.message)
    match ← Project.useDirectory directory with
    | .ok () => return config
    | .error fault => throw (.crash (.file fault))

def override (preferDecimal : Bool) (base : Option String) (config : Config) : Config :=
  let config := if preferDecimal then Entries.put "prefer_decimal" (.bool true) config else config
  match base.bind Text.lenientInt? with
  | some n => Entries.put "output_base" (.integer n) config
  | none => config

def openSession (setting : Setting) (project : Option Path) (preferDecimal : Bool)
    (base : Option String) : Command Session := do
  let config := override preferDecimal base (← configure project)
  let s ← match Session.configured config setting.sessionId with
    | .ok s => pure s
    | .error e => throw (.ofError "Invalid preset variable: " e)
  match ← s.perform (Session.startPresets config) with
  | (.ok (), s) => return s
  | (.error (.parse e), _) => throw (.failure ("Invalid preset variable: " ++ e.fault.message))
  | (.error e, _) => throw (.ofError "Invalid preset variable: " e)

def assignments (items : List String) : Command (List (String × String)) :=
  items.foldlM (fun presets item =>
    match Arguments.splitValue item with
    | (name, some text) => return Entries.put (Text.strip name) text presets
    | (_, none) =>
      throw (.failure ("Invalid --set format: " ++ Text.quoted item ++ ". Use name=value."))) []

def assignPresets (presets : List (String × String)) (s : Session) : Command Session :=
  presets.foldlM (fun s (name, text) => do
    match ← s.perform (Session.assign name text) with
    | (.ok _, s) => return s
    | (.error (.parse e), _) => throw (.fault text e)
    | (.error e, _) => throw (.ofError ("--set " ++ name ++ ": ") e)) s

def resultJson : Value → Json
  | .empty => .null
  | .integer n => .integer n
  | .decimal d => .text d.toText
  | .double x => if Binary64.isFinite x then .double x else .text (Binary64.toText x)

def entryJson (entry : Entry) : Json :=
  .object [("formula", .text entry.text), ("result", resultJson entry.value),
    ("tag", .text entry.value.tag.name), ("formatted", .text entry.formatted)]

def evalCommand (setting : Setting) (a : Arguments) (expression : String) (project : Option Path) :
    Command Outcome := do
  let presets ← assignments (a.values "--set")
  let s ← openSession setting project (a.hasFlag "--decimal") (a.value? "--base")
  let s ← assignPresets presets s
  match ← s.perform (Session.run expression) with
  | (.ok entry, _) =>
    return .ok [if a.hasFlag "--json" then (entryJson entry).printIndented else entry.formatted]
  | (.error (.parse e), _) => return .fault expression e
  | (.error e, _) => return .ofError "" e

def tokensCommand (a : Arguments) (expression : String) : Outcome :=
  let tokens := Token.all (a.hasFlag "--decimal") expression
  let failed := tokens.any (·.lexeme.isError)
  ⟨Outcome.linesText (tokens.map Token.toText), "", .status (if failed then 2 else 0)⟩

def listingCommand (a : Arguments) (expression : String) (nesting : Nat := usualNesting) : Outcome :=
  let f := Formula.compile (a.hasFlag "--decimal") expression nesting
  match f.outcome with
  | .ok p => .ok p.listing
  | .error e => .fault expression e

def padRight (width : Nat) (s : String) : String :=
  s ++ String.ofList (List.replicate (width - s.length) ' ')

def eventLine? : Json → Option String
  | .object es => do
    let shown (key : String) : String := (HostValue.ofJson ((es.lookup key).getD (.text ""))).display
    let .text level := (es.lookup "level").getD (.text "") | none
    let code := HostValue.ofJson ((es.lookup "error_code").getD .null)
    let line := "[" ++ shown "ts" ++ "] " ++ padRight 7 (Text.upper level) ++ " " ++
      shown "event_type" ++ ": " ++ shown "message"
    return if code.isTruthy then line ++ "  (" ++ code.display ++ ")" else line
  | _ => none

def eventLines : List Json → List String × Bool
  | [] => ([], true)
  | j :: js =>
    match eventLine? j with
    | some line =>
      let (lines, complete) := eventLines js
      (line :: lines, complete)
    | none => ([], false)

def eventsCommand (a : Arguments) (directory : Path) (limit : Int) : Command Outcome := do
  let log ← match ← Project.onFiles (EventLog.create directory EventLog.defaultTailBytes) with
    | .ok log => pure log
    | .error fault => throw (.crash (.file fault))
  let filter : EventFilter := ⟨(a.value? "--level").getD "", (a.value? "--type").getD "",
    (a.value? "--session-id").getD "", limit⟩
  match log.readGlobal (← getThe Project).files filter with
  | .error fault => return .crash (.read fault)
  | .ok [] => return .ok ["No events found."]
  | .ok events =>
    let (lines, complete) := eventLines events
    return if complete then .ok lines
      else ⟨Outcome.linesText lines, "", .crash (.read .notObject)⟩

def initFailure (setting : Setting) (fault : Config.ScaffoldFault) : Outcome :=
  match fault with
  | .exists _ => .failure (fault.message setting.root)
  | .file (.exists _) => .failure (fault.message setting.root)
  | .file fault => .crash (.file fault)

def initCommand (setting : Setting) (directory : Path) : Command Outcome := fun p =>
  let (result, files) := (Config.scaffold directory).run p.files
  let outcome : Outcome := match result with
    | .ok path => .ok ["Created " ++ path.display setting.root]
    | .error fault => initFailure setting fault
  (.ok outcome, { p with files })

def helpSpec : OptionSpec := ⟨"--help", false⟩

def specs : String → List OptionSpec
  | "eval" => [helpSpec, ⟨"--decimal", false⟩, ⟨"--base", true⟩, ⟨"--set", true⟩,
      ⟨"--project", true⟩, ⟨"--json", false⟩]
  | "tokens" => [helpSpec, ⟨"--decimal", false⟩]
  | "listing" => [helpSpec, ⟨"--decimal", false⟩]
  | "repl" => [helpSpec, ⟨"--decimal", false⟩, ⟨"--base", true⟩, ⟨"--project", true⟩]
  | "events" => [helpSpec, ⟨"--level", true⟩, ⟨"--type", true⟩, ⟨"--session-id", true⟩,
      ⟨"--limit", true⟩]
  | _ => [helpSpec]

def choices : String → Option (List String)
  | "--base" => some ["2", "8", "10", "16"]
  | "--level" => some ["info", "warning", "error"]
  | _ => none

def admits (setting : Setting) (files : Files) (name value : String) : Bool :=
  match choices name with
  | some values => values.contains value
  | none =>
    if name == "--project" then (existing? setting files value).isSome
    else if name == "--limit" then (Text.lenientInt? value).isSome
    else true

def admitsAll (setting : Setting) (files : Files) (a : Arguments) : Bool :=
  ["--base", "--level", "--project", "--limit"].all fun name =>
    (a.value? name).all (admits setting files name)

def command (setting : Setting) (name : String) (a : Arguments) : Command Progress := do
  let files := (← getThe Project).files
  if !admitsAll setting files a then throw .usage
  let project := (a.value? "--project").bind (existing? setting files)
  match name, a.positional with
  | "eval", [expression] => .done <$> evalCommand setting a expression project
  | "tokens", [expression] => return .done (tokensCommand a expression)
  | "listing", [expression] => return .done (listingCommand a expression)
  | "repl", [] =>
    .dialogue <$> openSession setting project (a.hasFlag "--decimal") (a.value? "--base")
  | "events", [directory] =>
    match existing? setting files directory with
    | some path =>
      .done <$> eventsCommand a path (((a.value? "--limit").bind Text.lenientInt?).getD 100)
    | none => throw .usage
  | "init", [directory] => .done <$> initCommand setting (Path.resolve setting.directory directory)
  | _, _ => throw .usage

def beginNamed (setting : Setting) (name : String) (args : List String) : InProject Progress := do
  match Arguments.parse? (specs name) args with
  | none => return .done .usage
  | some a =>
    if a.hasFlag "--help" then return .done ⟨"", "", .help⟩
    else
      match ← (command setting name a).run with
      | .ok progress => return progress
      | .error outcome => return .done outcome

def leadingOptions : List String → Option (List String × List String)
  | [] => some ([], [])
  | "--" :: rest => some ([], rest)
  | arg :: rest =>
    if arg == "--version" || arg == "--help" then
      (leadingOptions rest).map fun r => (arg :: r.1, r.2)
    else if Arguments.isOption arg then none
    else some ([], arg :: rest)

def begin (setting : Setting) (args : List String) : InProject Progress :=
  match leadingOptions args with
  | some ("--version" :: _, _) => return .done (.ok [version])
  | some (_ :: _, _) => return .done ⟨"", "", .help⟩
  | some ([], name :: args) => beginNamed setting name args
  | _ => return .done .usage

def run (setting : Setting) (input : String) (args : List String) : InProject Outcome := do
  match ← begin setting args with
  | .done outcome => return outcome
  | .dialogue s =>
    let (output, crash) ← Repl.dialogue "" (Repl.inputLines input) s
    match crash with
    | none => return ⟨output, "", .status 0⟩
    | some e => return ⟨output, "", .crash (.error e)⟩

end Reckoner.CommandLine
