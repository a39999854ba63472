import Reckoner.Config.Basic
import Reckoner.Log.EventLog

namespace Reckoner

structure Project where
  files : Files
  log : Option EventLog
  now : String
  deriving DecidableEq, Repr, Inhabited

abbrev InProject (α : Type) := StateM Project α

namespace Project

def onFiles {α : Type} (action : FileAction α) : InProject (Except FileFault α) := fun p =>
  let (result, files) := action.run p.files
  (result, { p with files })

/-- Whether a configuration asks for a log; one that cannot be read does. -/
def wantsLog (config : Except Config.Fault Config) : Bool :=
  match config with
  | .ok config => (config.get "logging_enabled").isTruthy
  | .error _ => true

def tailBytes (config : Except Config.Fault Config) : Int :=
  match config with
  | .ok config => ((config.get "logging_tail_bytes").asWhole.toOption).getD EventLog.defaultTailBytes
  | .error _ => EventLog.defaultTailBytes

def useDirectory (directory : Path) : InProject (Except FileFault Unit) := do
  let config := Config.load (← get).files directory
  if !wantsLog config then
    modify ({ · with log := none })
    return .ok ()
  match ← onFiles (EventLog.create directory (tailBytes config)) with
  | .ok log =>
    modify ({ · with log := some log })
    return .ok ()
  | .error fault => return .error fault

def detach : InProject Unit := modify ({ · with log := none })

def emit (event : Event) (session : Option String) : InProject Unit := do
  match (← get).log with
  | none => return
  | some log => discard (onFiles (log.write event.prepared session))

def report (level : Level) (type : EventType) (message : String) (context : Context)
    (errorCode session : Option String) : InProject Unit := do
  emit ⟨level, type, message, context, errorCode, (← get).now, 1⟩ session

end Project

end Reckoner
