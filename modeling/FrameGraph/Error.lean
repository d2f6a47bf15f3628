import FrameGraph.Text.Named

namespace FrameGraph

inductive ErrorKind where
  /-- a file could not be read -/
  | io
  /-- malformed input: a field is missing, of the wrong kind, or holds an unknown word -/
  | format
  /-- well-formed input that makes no sense -/
  | semantic
  deriving DecidableEq, Repr

instance : Named ErrorKind where
  all := [.io, .format, .semantic]
  name
    | .io => "Io"
    | .format => "Format"
    | .semantic => "Semantic"

/-- The path is a file for unreadable files, and a field, a name or an operand otherwise. -/
structure Error where
  kind : ErrorKind
  path : String
  reason : String
  deriving DecidableEq, Repr

namespace Error

def isFormat (e : Error) : Bool := e.kind == .format

def isSemantic (e : Error) : Bool := e.kind == .semantic

/-- The one line under which an error is shown and logged. -/
def display (e : Error) : String :=
  match e.kind with
  | .io => s!"I/O error reading '{e.path}': {e.reason}"
  | .format => s!"Format error at '{e.path}': {e.reason}"
  | .semantic => s!"Semantic error at '{e.path}': {e.reason}"

end Error

end FrameGraph
