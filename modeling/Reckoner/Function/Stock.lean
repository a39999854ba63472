import Reckoner.Function.Number

namespace Reckoner.Stock

/-- A sum of two numbers by the host's rules: a decimal and a double do not mix. -/
def plus : HostValue.Number → HostValue.Number → Except Error HostValue.Number
  | .whole a, .whole b => .ok (.whole (a + b))
  | .decimal a, .decimal b => ((Decimal.add .ample a b).mapError .decimal).map .decimal
  | .whole a, .decimal b => ((Decimal.add .ample (.ofInt a) b).mapError .decimal).map .decimal
  | .decimal a, .whole b => ((Decimal.add .ample a (.ofInt b)).mapError .decimal).map .decimal
  | .decimal _, .double _ => .error .badKind
  | .double _, .decimal _ => .error .badKind
  | a, b => do return .double ((← a.toDouble) + (← b.toDouble))

def sum (args : List HostValue) : Except Error HostValue := do
  let present := args.filter fun v => !v.isNone
  let total ← present.foldlM (fun total v => do plus total (← v.toNumber)) (.whole 0)
  return total.value

def recorded (label : String) (body : List HostValue → Except Error HostValue) : Function :=
  ⟨some label, none, body⟩

def const (v : HostValue) : Function := recorded "const" fun _ => .ok v

def count : Function := recorded "count" fun args => .ok (.integer args.length)

def first : Function := recorded "first" fun args => .ok (args.headD .none)

def fail : Function := recorded "fail" fun _ => .error (.badValue (.note "host failure"))

def ofKind? (kind : String) (value : HostValue) : Option Function :=
  match kind with
  | "const" => some (const value)
  | "sum" => some (recorded "sum" sum)
  | "count" => some count
  | "first" => some first
  | "fail" => some fail
  | _ => none

end Reckoner.Stock
