namespace FrameGraph

/-- Why a path cannot be read. -/
inductive ReadFault where
  | notFound
  | isFolder
  | notFolder
  deriving DecidableEq, Repr

def ReadFault.message : ReadFault → String
  | notFound => "No such file or directory (os error 2)"
  | isFolder => "Is a directory (os error 21)"
  | notFolder => "Not a directory (os error 20)"

inductive FileNode where
  | file (content : List UInt8)
  | folder
  deriving DecidableEq

/-- The files and folders that exist, each under its names from the top. The top itself is a folder
and is not listed. -/
structure Folder where
  nodes : List (List String × FileNode) := []

namespace Folder

/-- The names on a path. -/
def names (path : String) : List String :=
  (path.splitOn "/").filter fun s => s ≠ "" && s ≠ "."

def node? (f : Folder) (names : List String) : Option FileNode :=
  if names.isEmpty then some .folder else f.nodes.lookup names

/-- Takes away what a path names, with all that is below it. -/
def remove (f : Folder) (path : String) : Folder :=
  ⟨f.nodes.filter fun n => !(names path).isPrefixOf n.1⟩

/-- Puts a file or folder at a path, in place of what was there. -/
def put (f : Folder) (path : String) (node : FileNode) : Folder :=
  ⟨(names path, node) :: (f.remove path).nodes⟩

/-- The node reached by walking down the names from a folder. -/
def walk (f : Folder) (above : List String) : List String → Except ReadFault FileNode
  | [] => (f.node? above).elim (.error .notFound) .ok
  | s :: rest =>
    match f.node? above with
    | none => .error .notFound
    | some (.file _) => .error .notFolder
    | some .folder => walk f (if s = ".." then above.dropLast else above ++ [s]) rest

/-- The path asks for a folder, by a slash at its end or a single dot behind one. -/
def endsInFolder (path : String) : Bool := path.endsWith "/" || path.endsWith "/."

/-- The content of the file at a path. -/
def read (f : Folder) (path : String) : Except ReadFault (List UInt8) := do
  if path = "" then throw .notFound
  match ← f.walk [] (names path) with
  | .folder => throw .isFolder
  | .file content => if endsInFolder path then throw .notFolder else return content

end Folder

end FrameGraph
