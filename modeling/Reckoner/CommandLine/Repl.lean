import Reckoner.Session

namespace Reckoner.CommandLine

def faultLines (text : String) (e : ParseError) : List String := [
    "  " ++ text,
    "  " ++ String.ofList (List.replicate e.position.toNat ' ' ++
      List.replicate (max e.length.toNat 1) '^'),
    "Error: " ++ e.fault.message]

namespace Repl

def promptText : String := "pwcalc> "

inductive Reply
  | lines (output : List String)
  | leave
  | crash (e : Error)
  deriving BEq, Repr, Inhabited

def padded (width n : Nat) : String :=
  let digits := Text.numeral 10 n
  String.ofList (List.replicate (width - digits.length) ' ' ++ digits)

def historyLines (history : List Entry) : List String :=
  history.zipIdx.map fun (entry, i) =>
    padded 3 (i + 1) ++ "  " ++ entry.text ++ " = " ++ entry.formatted

def variableLines (bindings : List (String × HostValue)) : List String :=
  (Entries.sorted bindings).map fun (name, v) => name ++ " = " ++ v.display

def evaluate (line : String) (s : Session) : InProject (Reply × Session) := do
  let (result, s) ← s.perform (Session.run line)
  let reply := match result with
    | .ok entry => .lines [entry.formatted]
    | .error (.parse e) => .lines (faultLines line e)
    | .error e => if e.isEngine then .lines ["Error: " ++ e.message] else .crash e
  return (reply, s)

def respond (line : String) (s : Session) : InProject (Reply × Session) :=
  let line := Text.strip line
  if line.isEmpty then return (.lines [], s)
  else if line == "quit" || line == "exit" then return (.leave, s)
  else if line == ":history" then return (.lines (historyLines s.history), s)
  else if line == ":vars" then return (.lines (variableLines s.environment.bindings), s)
  else evaluate line s

def echoed (line : String) : String :=
  let kept := line.toList.reverse.dropWhile fun c => c == '\r' || c == '\n'
  String.ofList kept.reverse

/-- The whole dialogue: every line after its prompt, and the lines of its reply. After the last
    line a prompt is left. The error is one that ends the dialogue. -/
def dialogue (output : String) : List String → Session → InProject (String × Option Error)
  | [], _ => return (output ++ promptText, none)
  | line :: rest, s => do
    let output := output ++ promptText ++ echoed line ++ "\n"
    let (reply, s) ← respond line s
    match reply with
    | .lines ls => dialogue (ls.foldl (fun out l => out ++ l ++ "\n") output) rest s
    | .leave => return (output, none)
    | .crash e => return (output, some e)

def inputLines (input : String) : List String :=
  let lines := input.splitOn "\n"
  if lines.getLast? == some "" then lines.dropLast else lines

end Repl

end Reckoner.CommandLine
