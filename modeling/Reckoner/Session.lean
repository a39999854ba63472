import Reckoner.Formula
import Reckoner.Project

namespace Reckoner

structure Entry where
  text : String
  value : Value
  formatted : String
  deriving DecidableEq, Repr, Inhabited

structure Session where
  environment : Environment
  preferDecimal : Bool
  nesting : Nat
  outputBase : Int
  historySize : Nat
  id : String
  history : List Entry
  deriving Inhabited

def answerVariable : String := "ans"

namespace Session

abbrev Action (α : Type) := ExceptT Error (StateT Session (StateM Project)) α

def listener : String := "session"

def inProject {α : Type} (action : InProject α) : Action α :=
  ExceptT.lift (StateT.lift action)

def compile (text : String) : Action Formula := do
  let s ← getThe Session
  let f := Formula.compile s.preferDecimal text s.nesting
  inProject <| match f.outcome with
    | .ok p =>
      Project.report .info .formulaCompiled "Formula compiled"
        [("formula", .text text), ("max_stack", .integer p.depth)] none none
    | .error e =>
      Project.report .warning .formulaCompileFailed e.fault.message
        [("formula", .text text), ("position", .integer e.position), ("length", .integer e.length)]
        (some (Error.parse e).code) none
  return f

def reportChange (id name : String) (value : HostValue) : InProject Unit := do
  if name ≠ answerVariable then
    let what := if value.isNone then "deleted" else "assigned"
    Project.report .info .variableAssigned ("Variable " ++ name ++ " " ++ what)
      [("name", .text name), ("value", .text value.display), ("session_id", .text id)]
      none (some id)

/-- Reports the changes that the session was told of and empties the journal. -/
def reportChanges : Action Unit := do
  let s ← getThe Session
  inProject <| s.environment.journal.forM fun
    | .notified recipient name value => do if recipient = listener then reportChange s.id name value
    | .called .. => pure ()
  modifyThe Session fun s => { s with environment := { s.environment with journal := [] } }

/-- Runs an action on the environment and reports the changes it made, also when it fails. -/
def inEnvironment {α : Type} (action : Run Environment α) : Action α := do
  let s ← getThe Session
  let (result, environment) := action.run s.environment
  set { s with environment }
  reportChanges
  result

def setVariable (name : String) (value : HostValue) : Action Unit :=
  inEnvironment (Environment.host.set name value)

def deleteVariable (name : String) : Action Unit :=
  inEnvironment (Environment.host.delete name)

def format (s : Session) (v : Value) : Except Error String :=
  (v.format (if v.tag = .integer then s.outputBase else 10)).mapError .badValue

def assign (name text : String) : Action Value := do
  let f ← compile text
  f.check
  let v ← inEnvironment (f.evaluate Environment.host)
  setVariable name (.ofValue v)
  return v

def reportFailure (text : String) (e : Error) : Action Unit := do
  let id := (← getThe Session).id
  if e.isEngine then
    inProject <| Project.report .error .formulaEvalFailed e.message
      [("formula", .text text), ("session_id", .text id)] (some e.code) (some id)

def lastEntries (size : Nat) (entries : List Entry) : List Entry :=
  entries.drop (entries.length - size)

def run (text : String) : Action Entry := do
  let f ← compile text
  f.check
  let v ← tryCatch (inEnvironment (f.evaluate Environment.host)) fun e => do
    reportFailure text e
    throw e
  setVariable answerVariable (.ofValue v)
  let s ← getThe Session
  let entry : Entry := ⟨text, v, ← s.format v⟩
  set { s with history := lastEntries s.historySize (s.history ++ [entry]) }
  inProject <| Project.report .info .formulaEvaluated "Formula evaluated"
    [("formula", .text text), ("session_id", .text s.id), ("result", .text entry.formatted),
      ("tag", .text v.tag.name)] none (some s.id)
  return entry

def create (environment : Environment) (preferDecimal : Bool) (outputBase historySize : Int)
    (id : String) (nesting : Nat := usualNesting) : Session :=
  ⟨environment.subscribe listener, preferDecimal, nesting, outputBase, (max historySize 1).toNat, id, []⟩

def start : Action Unit := do
  let s ← getThe Session
  inProject <| Project.report .info .sessionStarted "Session started"
    [("session_id", .text s.id), ("prefer_decimal", .bool s.preferDecimal)] none (some s.id)

def close : Action Unit :=
  modifyThe Session fun s => { s with environment := s.environment.unsubscribe listener }

def configured (config : Config) (id : String) (nesting : Nat := usualNesting) :
    Except Error Session := do
  let base ← ((config.lookup "output_base").getD (.integer 10)).asWhole
  let size ← ((config.lookup "history_size").getD (.integer 100)).asWhole
  return create Environment.standard (config.get "prefer_decimal").isTruthy base size id nesting

def startPresets (config : Config) : Action Unit := do
  start
  match config.get "variables" with
  | .mapping presets => presets.forM fun (name, v) => discard (assign name v.display)
  | v => if v.isTruthy then throw .badKind

end Session

def Session.perform {α : Type} (action : Session.Action α) (s : Session) :
    InProject (Except Error α × Session) :=
  StateT.run (ExceptT.run action) s

end Reckoner
