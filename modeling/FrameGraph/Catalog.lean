import FrameGraph.Build
import FrameGraph.Load
import Std.Data.TreeMap

namespace FrameGraph

/-- A graph and the frame it was last built for, if it has been built. -/
structure Shelved where
  graph : Graph
  built : Option Frame := none

/-- Graphs by name. An operation that fails leaves them as they were. -/
structure Catalog where
  byName : Std.TreeMap String Shelved := {}

namespace Catalog

def origin : Origin := { source := "galaxy3d::RenderGraphManager", file := "FrameGraph/Catalog.lean" }

def shelved? (c : Catalog) (name : String) : Option Shelved := c.byName[name]?

def graph? (c : Catalog) (name : String) : Option Graph := (c.shelved? name).map (·.graph)

def size (c : Catalog) : Nat := c.byName.size

def names (c : Catalog) : List String := c.byName.keys

def put (c : Catalog) (name : String) (s : Shelved) : Catalog := ⟨c.byName.insert name s⟩

def erase (c : Catalog) (name : String) : Catalog := ⟨c.byName.erase name⟩

theorem shelved?_put (c : Catalog) (n m : String) (s : Shelved) :
    (c.put n s).shelved? m = if n = m then some s else c.shelved? m := by
  simp [shelved?, put, Std.TreeMap.getElem?_insert]

theorem shelved?_erase (c : Catalog) (n m : String) :
    (c.erase n).shelved? m = if n = m then none else c.shelved? m := by
  simp [shelved?, erase, Std.TreeMap.getElem?_erase]

def empty : Catalog := {}

def taken (name : String) : Error := ⟨.semantic, name, s!"RenderGraph '{name}' already exists"⟩

def unknown (name : String) : Error := ⟨.semantic, name, s!"RenderGraph '{name}' does not exist"⟩

/-- Puts a graph under a free name. -/
def insert (name : String) (g : Graph) : Action Catalog Graph := do
  let c ← Action.get
  if (c.shelved? name).isSome then Action.fail origin (taken name)
  Action.set (c.put name { graph := g })
  return g

/-- Loads a file under a free name; the name is checked before the file is read. -/
def load (parse : Json.Parser) (folder : Folder) (name path : String) : Action Catalog Graph := do
  let c ← Action.get
  if (c.shelved? name).isSome then Action.fail origin (taken name)
  insert name (← Graph.loadFile parse folder path)

/-- Loads a file in place of the graph of a name, which then counts as never built. A fault in the
file is followed by a warning. -/
def reload (parse : Json.Parser) (folder : Folder) (name path : String) : Action Catalog Graph := do
  let c ← Action.get
  if (c.shelved? name).isNone then Action.fail origin (unknown name)
  let g ← Action.orElse (Graph.loadFile parse folder path) fun e => do
    Action.note origin .warn s!"Reload of RenderGraph '{name}' failed, keeping previous graph"
    Action.refuse e
  Action.note origin .info s!"Reloaded RenderGraph '{name}'"
  Action.set (c.put name { graph := g })
  return g

/-- Builds the graph of a name into an engine and, if that succeeds, remembers the frame. -/
def build {σ ι β π ε : Type} (engine : Engine σ ι β π ε) (name : String) (frame : Frame)
    (executors : String → Option ε) : Action (Catalog × σ) Stats := do
  let (c, _) ← Action.get
  match c.shelved? name with
  | none => Action.fail origin (unknown name)
  | some s =>
    let stats ← Action.onSecond (s.graph.build engine frame executors)
    Action.onFirst (Action.set (c.put name { s with built := some frame }))
    return stats

/-- The graph of a name has never been built, or only for other frames since. Names that the catalog
does not hold need no build. -/
def needsRebuild (c : Catalog) (name : String) (frame : Frame) : Bool :=
  match c.shelved? name with
  | none => false
  | some s => s.built.all frame.requiresRebuild

end Catalog

end FrameGraph
