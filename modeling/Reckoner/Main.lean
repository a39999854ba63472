import Reckoner.CommandLine.Basic
import Reckoner.Log.Stamp
import Std.Time.DateTime.Timestamp

namespace Reckoner.Program

def textOf (bytes : ByteArray) : String :=
  match String.fromUTF8? bytes with
  | some s => s
  | none => String.ofList (bytes.toList.map fun b => if b < 128 then Char.ofNat b.toNat else '\uFFFD')

def succeeds {α : Type} (action : IO α) : IO Bool := do
  try
    discard action
    return true
  catch _ => return false

def load (withText : Bool) (files : Files) (path : Path) : IO Files := do
  let name := path.display ""
  if ← succeeds (IO.FS.realPath (name ++ "/.")) then
    return ((Files.makeDirectories path).run files).2
  else if !(← succeeds (IO.FS.realPath name)) then return files
  else if withText then
    try
      return ((Files.append path (textOf (← IO.FS.readBinFile name))).run files).2
    catch _ => return files
  else return ((Files.append path "").run files).2

def loadProject (files : Files) (directory : Path) : IO Files := do
  let files ← load false files directory
  if files.node? directory != some .directory then return files
  let log : EventLog := ⟨directory, EventLog.defaultTailBytes⟩
  [directory ++ [Config.fileName], log.globalPath].foldlM (load true)
    (← load false files (log.logsPath ++ ["sessions"]))

def loadAll (directory : Path) (args : List String) : IO Files := do
  let values := args.filterMap fun arg => (CommandLine.Arguments.splitValue arg).2
  ((args ++ values).map (Path.resolve directory)).foldlM loadProject
    ((Files.makeDirectories directory).run Files.empty).2

def saveNode (before : Files) (path : Path) (node : Node) : IO Unit := do
  let name := path.display ""
  match node, before.node? path with
  | .directory, some .directory => return
  | .directory, _ => IO.FS.createDirAll name
  | .file content, some (.file old) =>
    if content != old then
      if old.toList.isPrefixOf content.toList then
        let handle ← IO.FS.Handle.mk name .append
        handle.putStr (String.ofList (content.toList.drop old.length))
      else IO.FS.writeFile name content
  | .file content, _ => IO.FS.writeFile name content

def save (before after : Files) : IO Unit :=
  after.nodes.forM fun (path, node) => saveNode before path node

def now : IO String := do
  let time ← Std.Time.Timestamp.now
  return Stamp.ofMicroseconds (time.toNanosecondsSinceUnixEpoch.val / 1000).toNat

def freshId : IO String := do
  let bytes ← IO.getRandomBytes 6
  return String.join (bytes.toList.map fun b =>
    String.ofList [Text.digitChar (b.toNat / 16), Text.digitChar (b.toNat % 16)])

def perform {α : Type} (action : InProject α) (project : Project) : IO (α × Project) := do
  let (result, after) := action.run { project with now := (← now) }
  save project.files after.files
  return (result, after)

def usageText : String :=
  "Usage: pwcalc [--version] [--help] COMMAND [ARGS]...\n" ++
  "\n" ++
  "Commands:\n" ++
  "  eval [--decimal] [--base B] [--set NAME=FORMULA]... [--project DIR] [--json] EXPRESSION\n" ++
  "  tokens [--decimal] EXPRESSION\n" ++
  "  listing [--decimal] EXPRESSION\n" ++
  "  repl [--decimal] [--base B] [--project DIR]\n" ++
  "  events [--level LEVEL] [--type TYPE] [--session-id ID] [--limit N] DIRECTORY\n" ++
  "  init DIRECTORY"

def crashText : CommandLine.Crash → String
  | .error e => e.message
  | .config fault => fault.message
  | .file fault => fault.message ""
  | .read (.file fault) => fault.message ""
  | .read .notObject => "The event log has a line that is no event"

def finish (outcome : CommandLine.Outcome) : IO UInt32 := do
  IO.print outcome.output
  IO.eprint outcome.errors
  match outcome.ending with
  | .status code => return code.toUInt32
  | .help =>
    IO.println usageText
    return 0
  | .usage =>
    IO.eprintln usageText
    return 2
  | .crash c =>
    IO.eprintln ("Error: " ++ crashText c)
    return 1

partial def converse (s : Session) (project : Project) : IO UInt32 := do
  IO.print CommandLine.Repl.promptText
  (← IO.getStdout).flush
  let line ← (← IO.getStdin).getLine
  if line.isEmpty then return 0
  let ((reply, s), project) ← perform (CommandLine.Repl.respond line s) project
  match reply with
  | .lines ls =>
    IO.print (CommandLine.Outcome.linesText ls)
    converse s project
  | .leave => return 0
  | .crash e => finish (.crash (.error e))

end Reckoner.Program

open Reckoner in
def main (args : List String) : IO UInt32 := do
  let directory := Path.ofText (toString (← IO.currentDir))
  let files ← Program.loadAll directory args
  let setting : CommandLine.Setting := ⟨directory, "", ← Program.freshId⟩
  let (progress, project) ← Program.perform (CommandLine.begin setting args) ⟨files, none, ""⟩
  match progress with
  | .done outcome => Program.finish outcome
  | .dialogue s => Program.converse s project
