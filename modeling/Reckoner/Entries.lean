namespace Reckoner.Entries

/-- Binds a name: in its place if it is bound already, else at the end. -/
def put {α : Type} (name : String) (value : α) : List (String × α) → List (String × α)
  | [] => [(name, value)]
  | (n, v) :: rest => if n = name then (name, value) :: rest else (n, v) :: put name value rest

def erase {α : Type} (name : String) (entries : List (String × α)) : List (String × α) :=
  entries.filter fun e => e.1 ≠ name

def update {α : Type} (entries new : List (String × α)) : List (String × α) :=
  new.foldl (fun es e => put e.1 e.2 es) entries

def contains {α : Type} (name : String) (entries : List (String × α)) : Bool :=
  (entries.lookup name).isSome

def sorted {α : Type} (entries : List (String × α)) : List (String × α) :=
  entries.mergeSort fun a b => a.1 ≤ b.1

end Reckoner.Entries
