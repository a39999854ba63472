import Reckoner.Function.Library

namespace Reckoner

structure Registry where
  functions : List (String × Function)
  constants : List (String × HostValue)

namespace Registry

def standard : Registry := ⟨Library.functions, Library.constants⟩

def addFunction (r : Registry) (name : String) (low high : Nat) (member : Member) : Registry :=
  let f : Function := match member with
    | .function f => ⟨f.label, some ⟨name, low, high⟩, f.body⟩
    | .constant _ => ⟨none, some ⟨name, low, high⟩, fun _ => .error .badKind⟩
  { r with functions := Entries.put name f r.functions }

def addConstant (r : Registry) (name : String) (v : HostValue) : Registry :=
  { r with constants := Entries.put name v r.constants }

def function? (r : Registry) (name : String) : Option Function := r.functions.lookup name

def unknownText (name : String) : String := "Unknown function: " ++ Text.quoted name

def members (r : Registry) : List (String × Member) :=
  Entries.update (r.constants.map fun c => (c.1, .constant c.2))
    (r.functions.map fun f => (f.1, .function f.2))

end Registry

end Reckoner
