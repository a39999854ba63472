import Reckoner.Function.Registry
import Reckoner.Machine

namespace Reckoner

/-- An entry of the journal: a listener was told of a change, where a deletion has no value, or
    a function was called. -/
inductive Occurrence
  | notified (listener name : String) (value : HostValue)
  | called (label : String) (arguments : List HostValue)
  deriving BEq, Repr, Inhabited

structure Environment where
  bindings : List (String × HostValue)
  library : List (String × Member)
  listeners : List String
  journal : List Occurrence
  deriving Inhabited

namespace Environment

def ofLibrary (library : List (String × Member)) (bindings : List (String × HostValue)) :
    Environment :=
  ⟨bindings, library, [], []⟩

def standard : Environment := ofLibrary Registry.standard.members []

def contains (env : Environment) (name : String) : Bool :=
  Entries.contains name env.bindings || Entries.contains name env.library

/-- The member under a name; a variable hides the library. Variables hold data, so a function that the
    host binds as a variable is not a member to be called. -/
def member? (env : Environment) (name : String) : Option Member :=
  match env.bindings.lookup name with
  | some v => some (.constant v)
  | none => env.library.lookup name

def get (env : Environment) (name : String) : HostValue :=
  match env.member? name with
  | some m => m.value
  | none => .none

/-- Listeners are passive: none of them fails, and none writes to the environment while it is told. -/
def notify (env : Environment) (name : String) (value : HostValue) : Environment :=
  { env with journal := env.journal ++ env.listeners.map fun l => .notified l name value }

def set (env : Environment) (name : String) (value : HostValue) : Environment :=
  { env with bindings := Entries.put name value env.bindings }.notify name value

def delete (env : Environment) (name : String) : Environment :=
  { env with bindings := Entries.erase name env.bindings }.notify name .none

def record (env : Environment) (f : Function) (args : List HostValue) : Environment :=
  match f.label with
  | some label => { env with journal := env.journal ++ [.called label args] }
  | none => env

def call (f : Function) (args : List HostValue) : Run Environment HostValue := do
  f.accept args
  modify (·.record f args)
  f.body args

def invoke (name : String) (args : List HostValue) : Run Environment HostValue := do
  match (← getThe Environment).member? name with
  | none => throw (.call name .unknown)
  | some (.constant v) => return v
  | some (.function f) => call f args

def importMembers (env : Environment) (members : List (String × Member)) : Environment :=
  { env with library := Entries.update env.library members }

def subscribe (env : Environment) (listener : String) : Environment :=
  { env with listeners := env.listeners ++ [listener] }

def unsubscribe (env : Environment) (listener : String) : Environment :=
  { env with listeners := env.listeners.erase listener }

def host : Host Environment where
  get name := do return (← getThe Environment).get name
  set name value := modify (·.set name value)
  delete name := modify (·.delete name)
  invoke := invoke

end Environment

end Reckoner
