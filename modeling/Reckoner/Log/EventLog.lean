import Reckoner.Files
import Reckoner.Json.Read
import Reckoner.Log.Event
import Reckoner.Text.Blank
import Reckoner.Text.Lines

namespace Reckoner

structure EventLog where
  directory : Path
  tailBytes : Int
  deriving DecidableEq, Repr, Inhabited

structure EventFilter where
  level : String
  type : String
  session : String
  limit : Int
  deriving DecidableEq, Repr, Inhabited

inductive ReadFault
  | file (fault : FileFault)
  | notObject
  deriving DecidableEq, Repr, Inhabited

namespace EventLog

def defaultTailBytes : Int := 2097152

def defaultLimit : Int := 200

def maxLimit : Int := 2000

def logsPath (log : EventLog) : Path := log.directory ++ ["logs"]

def globalPath (log : EventLog) : Path := log.logsPath ++ ["events.ndjson"]

def sessionPath (log : EventLog) (id : String) : Path :=
  log.logsPath ++ ["sessions", id ++ ".ndjson"]

def create (directory : Path) (tailBytes : Int) : FileAction EventLog := do
  let log : EventLog := ⟨directory, tailBytes⟩
  Files.makeDirectories log.logsPath
  Files.makeDirectories (log.logsPath ++ ["sessions"])
  return log

def isSafeChar (c : Char) : Bool := c.isAlphanum || c == '_' || c == '-'

/-- A session id that can name a file: letters, digits, `_` and `-`, and at most one line feed
    at its end. -/
def isSafeId (id : String) : Bool :=
  let cs := id.toList
  let body := if cs.getLast? == some '\n' then cs.dropLast else cs
  !body.isEmpty && body.all isSafeChar

def write (log : EventLog) (e : Event) (session : Option String) : FileAction Unit := do
  let line := e.line ++ "\n"
  Files.append log.globalPath line
  match session with
  | some id => if isSafeId id then Files.append (log.sessionPath id) line
  | none => pure ()

/-- The last `budget` bytes of a text given in reverse, before `kept`. The bytes of a character
    that is cut stand as replacement characters. -/
def lastBytes : Nat → List Char → List Char → List Char
  | _, [], kept => kept
  | budget, c :: reversed, kept =>
    if c.utf8Size ≤ budget then lastBytes (budget - c.utf8Size) reversed (c :: kept)
    else List.replicate budget '\uFFFD' ++ kept

/-- Drops a first line that may be a fragment; without a line end it stays. -/
def dropFragment (cs : List Char) : List Char :=
  if cs.contains '\n' then (cs.dropWhile (· != '\n')).drop 1 else cs

def tail (tailBytes : Int) (s : String) : String :=
  if s.utf8ByteSize ≤ tailBytes then s
  else String.ofList (dropFragment (lastBytes tailBytes.toNat s.toList.reverse []))

def parse (s : String) : List Json :=
  (Text.lines s).filterMap fun line => Json.read? (Text.strip line)

def eventsIn (log : EventLog) (files : Files) (path : Path) : Except ReadFault (List Json) :=
  match files.node? path with
  | none => .ok []
  | some .directory => .error (.file (.isDirectory path))
  | some (.file content) => .ok (parse (tail log.tailBytes content))

def hasText (key value : String) : Json → Except ReadFault Bool
  | .object es => .ok ((es.lookup key).bind Json.text? == some value)
  | _ => .error .notObject

def inSession (id : String) : Json → Except ReadFault Bool
  | .object es => hasText "session_id" id ((es.lookup "context").getD (.object []))
  | _ => .error .notObject

def select (value : String) (passes : String → Json → Except ReadFault Bool) (events : List Json) :
    Except ReadFault (List Json) :=
  if value.isEmpty then .ok events else events.filterM (passes value)

def takeLimit (limit : Int) (events : List Json) : List Json :=
  let limit := min limit maxLimit
  events.take (if 0 ≤ limit then limit.toNat else events.length - limit.natAbs)

def readGlobal (log : EventLog) (files : Files) (filter : EventFilter) :
    Except ReadFault (List Json) := do
  let events ← log.eventsIn files log.globalPath
  let events ← select filter.level (hasText "level") events
  let events ← select filter.type (hasText "event_type") events
  let events ← select filter.session inSession events
  return takeLimit filter.limit events.reverse

def readSession (log : EventLog) (files : Files) (id : String) : Except ReadFault (List Json) :=
  if isSafeId id then log.eventsIn files (log.sessionPath id) else .ok []

end EventLog

end Reckoner
