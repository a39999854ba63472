import Reckoner.Text.Quoted

namespace Reckoner

/-- The components of a path below a directory that has no name here; an absolute path begins
    with `/`. -/
abbrev Path := List String

inductive Node
  | file (content : String)
  | directory
  deriving DecidableEq, Repr, Inhabited

inductive FileFault
  | isDirectory (path : Path)
  | notDirectory (path : Path)
  | exists (path : Path)
  | refused (path : Path)
  deriving DecidableEq, Repr, Inhabited

/-- Every node by its path, but the two where paths begin; and whether the system refuses each
    of the appends to come, of which past the end of the list it refuses none. -/
structure Files where
  nodes : List (Path × Node)
  refusals : List Bool
  deriving DecidableEq, Repr, Inhabited

abbrev FileAction (α : Type) := ExceptT FileFault (StateM Files) α

namespace Path

def addComponent (path : Path) (component : String) : Path :=
  if component == "" || component == "." then path
  else if component == ".." then (if path == ["/"] then path else path.dropLast)
  else path ++ [component]

def components : List Char → List Char → List String
  | current, [] => [String.ofList current.reverse]
  | current, c :: cs =>
    if c == '/' then String.ofList current.reverse :: components [] cs
    else components (c :: current) cs

def parts (base : Path) (s : String) : Path × List String :=
  (if s.startsWith "/" then ["/"] else base, components [] s.toList)

def resolve (base : Path) (s : String) : Path :=
  let (root, components) := parts base s
  components.foldl addComponent root

def ofText (s : String) : Path := resolve [] s

def display (root : String) : Path → String
  | "/" :: components => "/" ++ "/".intercalate components
  | [] => if root.isEmpty then "." else root
  | components => "/".intercalate (if root.isEmpty then components else root :: components)

end Path

def FileFault.message (root : String) : FileFault → String
  | isDirectory path => "[Errno 21] Is a directory: " ++ Text.quoted (path.display root)
  | notDirectory path => "[Errno 20] Not a directory: " ++ Text.quoted (path.display root)
  | .exists path => "[Errno 17] File exists: " ++ Text.quoted (path.display root)
  | refused path => "[Errno 13] Permission denied: " ++ Text.quoted (path.display root)

namespace Files

def empty : Files := ⟨[], []⟩

def node? (files : Files) (path : Path) : Option Node :=
  if path.isEmpty || path == ["/"] then some .directory else files.nodes.lookup path

def exists? (files : Files) (path : Path) : Bool := (files.node? path).isSome

def walk? (files : Files) (path : Path) (component : String) : Option Path :=
  match files.node? path with
  | some .directory => some (path.addComponent component)
  | _ => none

def locate? (files : Files) (base : Path) (s : String) : Option Path :=
  let (root, components) := Path.parts base s
  (components.foldlM files.walk? root).filter files.exists?

def text? (files : Files) (path : Path) : Option String :=
  match files.node? path with
  | some (.file content) => some content
  | _ => none

def put (files : Files) (path : Path) (node : Node) : Files :=
  if files.nodes.any (·.1 == path) then
    { files with nodes := files.nodes.map fun e => if e.1 == path then (path, node) else e }
  else { files with nodes := files.nodes ++ [(path, node)] }

def ancestry (path : Path) : List Path := (List.range path.length).map fun n => path.take (n + 1)

def makeDirectories (path : Path) : FileAction Unit :=
  (ancestry path).forM fun p => do
    match (← getThe Files).node? p with
    | some .directory => pure ()
    | some (.file _) => throw (if p = path then .exists path else .notDirectory path)
    | none => modify (·.put p .directory)

def write (path : Path) (content : String) : FileAction Unit := do
  match (← getThe Files).node? path with
  | some .directory => throw (.isDirectory path)
  | _ => modify (·.put path (.file content))

def permit (path : Path) : FileAction Unit := do
  let files ← getThe Files
  set { files with refusals := files.refusals.tail }
  if files.refusals.headD false then throw (.refused path)

def append (path : Path) (content : String) : FileAction Unit := do
  makeDirectories path.dropLast
  permit path
  match (← getThe Files).node? path with
  | some .directory => throw (.isDirectory path)
  | some (.file before) => modify (·.put path (.file (before ++ content)))
  | none => modify (·.put path (.file content))

def below (files : Files) (directory : Path) : List Path :=
  files.nodes.filterMap fun (path, node) =>
    match node with
    | .directory => none
    | .file _ => if directory.isPrefixOf path then some (path.drop directory.length) else none

def ofTexts (texts : List (String × String)) : Files :=
  texts.foldl (fun files t => ((append (Path.ofText t.1) t.2).run files).2) empty

end Files

end Reckoner
