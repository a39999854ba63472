import Reckoner.Json.Print

namespace Reckoner

inductive Level
  | info
  | warning
  | error
  deriving DecidableEq, Repr, Inhabited

namespace Level

def name : Level → String
  | info => "info"
  | warning => "warning"
  | error => "error"

def all : List Level := [info, warning, error]

def ofName? (s : String) : Option Level := all.find? (·.name == s)

end Level

inductive EventType
  | sessionStarted
  | formulaCompiled
  | formulaCompileFailed
  | formulaEvaluated
  | formulaEvalFailed
  | variableAssigned
  deriving DecidableEq, Repr, Inhabited

namespace EventType

def name : EventType → String
  | sessionStarted => "session_started"
  | formulaCompiled => "formula_compiled"
  | formulaCompileFailed => "formula_compile_failed"
  | formulaEvaluated => "formula_evaluated"
  | formulaEvalFailed => "formula_eval_failed"
  | variableAssigned => "variable_assigned"

def all : List EventType := [
    sessionStarted, formulaCompiled, formulaCompileFailed, formulaEvaluated, formulaEvalFailed,
    variableAssigned]

def ofName? (s : String) : Option EventType := all.find? (·.name == s)

def requiredKeys : EventType → List String
  | sessionStarted => ["session_id"]
  | variableAssigned => ["name"]
  | _ => ["formula"]

end EventType

abbrev Context := List (String × Json)

structure Event where
  level : Level
  type : EventType
  message : String
  context : Context
  errorCode : Option String
  time : String
  schemaVersion : Int
  deriving BEq, Repr, Inhabited

namespace Context

def maxTextLength : Nat := 256

def cutText (s : String) : String :=
  if s.length ≤ maxTextLength then s
  else String.ofList (s.toList.take maxTextLength) ++ "...[truncated]"

mutual

def truncate : List (String × Json) → List (String × Json)
  | [] => []
  | (k, j) :: es => (k, truncateEntry j) :: truncate es

def truncateEntry : Json → Json
  | .list js => .list (truncateItems js)
  | .object es => .object (truncate es)
  | .text s => .text (cutText s)
  | j => j

/-- The items of a list that is itself a value of an object; lists among them stay. -/
def truncateItems : List Json → List Json
  | [] => []
  | .object es :: js => .object (truncate es) :: truncateItems js
  | .text s :: js => .text (cutText s) :: truncateItems js
  | j :: js => j :: truncateItems js

end

end Context

namespace Event

def truncated (e : Event) : Event := { e with context := Context.truncate e.context }

def missingKeys (e : Event) : List String :=
  (e.type.requiredKeys.filter fun k => !Entries.contains k e.context).mergeSort (· ≤ ·)

def attributed (e : Event) : Event :=
  if e.missingKeys.isEmpty then e
  else
    let missing := Json.list (e.missingKeys.map .text)
    { e with level := .warning, context := Entries.put "_missing_attribution" missing e.context }

def prepared (e : Event) : Event := e.truncated.attributed

def toJson (e : Event) : Json :=
  .object [
    ("context", .object e.context),
    ("error_code", match e.errorCode with
      | some code => .text code
      | none => .null),
    ("event_type", .text e.type.name),
    ("level", .text e.level.name),
    ("message", .text e.message),
    ("schema_version", .integer e.schemaVersion),
    ("ts", .text e.time)]

def versionOf? : Json → Option Int
  | .integer n => some n
  | .bool b => some (if b then 1 else 0)
  | .double x => if Binary64.isIntegral x then Binary64.toInt? .down x else none
  | .text s => Text.lenientInt? s
  | _ => none

def optionalText? : Json → Option (Option String)
  | .null => some none
  | .text s => some (some s)
  | _ => none

def context? : Json → Option Context
  | .object es => some es
  | _ => none

/-- The event with the fields of an object; all but level and type have defaults, other entries
    are dropped, and a field of the wrong kind makes it no event. -/
def ofFields? (now : String) (fields : Json) : Option Event := do
  let field (key : String) (default : Json) : Json := (fields.get? key).getD default
  let level ← ((← fields.get? "level").text?).bind Level.ofName?
  let type ← ((← fields.get? "event_type").text?).bind EventType.ofName?
  let message ← (field "message" (.text "")).text?
  let context ← context? (field "context" (.object []))
  let errorCode ← optionalText? (field "error_code" .null)
  let time ← (field "ts" (.text now)).text?
  let version ← versionOf? (field "schema_version" (.integer 1))
  return ⟨level, type, message, context, errorCode, time, version⟩

def line (e : Event) : String := e.toJson.sorted.print

end Event

end Reckoner
