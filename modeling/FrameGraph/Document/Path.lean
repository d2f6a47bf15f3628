namespace FrameGraph.Document

inductive Step where
  | field (name : String)
  | item (index : Nat)
  deriving DecidableEq, Repr

/-- The steps from the root, written as in `a.b[2].c`. -/
abbrev Path := List Step

namespace Path

/-- The written form of steps that come after others. -/
def renderTail : Path → String
  | [] => ""
  | .field name :: p => "." ++ name ++ renderTail p
  | .item i :: p => "[" ++ toString i ++ "]" ++ renderTail p

def render : Path → String
  | [] => "<root>"
  | .field name :: p => name ++ renderTail p
  | p => renderTail p

/-- The path of a field of the object at a path. -/
def field (p : Path) (name : String) : Path := p ++ [.field name]

/-- The path of an item of the array at a path. -/
def item (p : Path) (i : Nat) : Path := p ++ [.item i]

end Path

end FrameGraph.Document
