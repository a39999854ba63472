import Reckoner.Environment
import Reckoner.Expr.Code
import Reckoner.Expr.Parse

namespace Reckoner

structure Formula where
  source : String
  preferDecimal : Bool
  outcome : Except ParseError Program

namespace Formula

/-- Compiles a text. Where decimals are preferred, fractions are read as decimals and whole
    numbers that leave 64 bits become decimals. -/
def compile (preferDecimal : Bool) (source : String) (nesting : Nat := usualNesting) : Formula :=
  ⟨source, preferDecimal, (Expr.ofText preferDecimal source nesting).map Expr.program⟩

def isValid (f : Formula) : Bool := f.outcome.toBool

def depth (f : Formula) : Int :=
  match f.outcome with
  | .ok p => p.depth
  | .error _ => -1

def code? (f : Formula) : Option (List Instruction) := f.outcome.toOption.map Program.code

def check (f : Formula) : Except Error Unit :=
  match f.outcome with
  | .ok _ => .ok ()
  | .error e => .error (.parse e)

def program (f : Formula) : Except Error Program :=
  match f.outcome with
  | .ok p => .ok p
  | .error _ => .error (.notCompiled f.source)

def listing (f : Formula) : Except Error (List String) := f.program.map Program.listing

def evaluate {σ : Type} (host : Host σ) (f : Formula) : Run σ Value := do
  Machine.run host f.preferDecimal (← f.program)

def display (f : Formula) : String :=
  "Formula(" ++ Text.quoted f.source ++ ", " ++ (if f.isValid then "valid" else "invalid") ++ ")"

def tokens (f : Formula) : List Token := Token.all f.preferDecimal f.source

end Formula

end Reckoner
