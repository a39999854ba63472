import Reckoner.Text.Lenient

namespace Reckoner.CommandLine

structure OptionSpec where
  name : String
  hasValue : Bool
  deriving DecidableEq, Repr

structure Arguments where
  options : List (String × String)
  positional : List String
  deriving DecidableEq, Repr, Inhabited

namespace Arguments

def isOption (arg : String) : Bool := arg.startsWith "-" && 1 < arg.length

def splitValue (arg : String) : String × Option String :=
  let cs := arg.toList
  match cs.dropWhile (· != '=') with
  | _ :: value => (String.ofList (cs.takeWhile (· != '=')), some (String.ofList value))
  | [] => (arg, none)

def addOption (name value : String) (a : Arguments) : Arguments :=
  { a with options := (name, value) :: a.options }

def addPositional (arg : String) (a : Arguments) : Arguments :=
  { a with positional := arg :: a.positional }

def parse? (specs : List OptionSpec) : List String → Option Arguments
  | [] => some ⟨[], []⟩
  | "--" :: rest => some ⟨[], rest⟩
  | arg :: rest =>
    if isOption arg then
      let (name, value) := splitValue arg
      match specs.find? (·.name == name), value, rest with
      | some ⟨_, false⟩, none, rest => (parse? specs rest).map (addOption name "")
      | some ⟨_, true⟩, some value, rest => (parse? specs rest).map (addOption name value)
      | some ⟨_, true⟩, none, value :: rest => (parse? specs rest).map (addOption name value)
      | _, _, _ => none
    else (parse? specs rest).map (addPositional arg)

def hasFlag (a : Arguments) (name : String) : Bool := a.options.any (·.1 == name)

def values (a : Arguments) (name : String) : List String :=
  (a.options.filter (·.1 == name)).map (·.2)

def value? (a : Arguments) (name : String) : Option String := (a.values name).getLast?

end Arguments

end Reckoner.CommandLine
