import FrameGraph.Build.Instance
import FrameGraph.Document.Path
import FrameGraph.Number.Counter

namespace FrameGraph

/-- Counts of one build. Instances are counted one by one; declarations that a condition excludes
count as skipped, and those that are repeated zero times do not count at all. -/
structure Stats where
  images : Counter := {}
  buffers : Counter := {}
  passes : Counter := {}
  skippedResources : Counter := {}
  skippedPasses : Counter := {}
  deriving DecidableEq, Repr

namespace Build

open Document (Path)

def origin : Origin := { source := "galaxy3d::GraphBuilder", file := "FrameGraph/Build.lean" }

def skipped (what name : String) (c : Condition) : String :=
  s!"Skipping {what} '{name}' ({Named.name c})"

def declaredImage (q : ImageRequest) : String :=
  s!"Image '{q.name}': {q.description.size.width.toNat}x{q.description.size.height.toNat}" ++
    s!"x{q.description.layers.toNat} {Named.name q.description.format}"

def declaredBuffer (q : BufferRequest) : String :=
  s!"Buffer '{q.name}': {q.description.size.toNat} bytes"

def declaredPass (q : PassRequest) (execute : String) : String :=
  s!"Pass '{q.name}' ({Named.name q.type}) -> executor '{execute}'"

def finished (graph : String) (s : Stats) : String :=
  s!"Built render graph '{graph}': {s.images.value} images, {s.buffers.value} buffers, " ++
    s!"{s.passes.value} passes ({s.skippedResources.value} resources and " ++
    s!"{s.skippedPasses.value} passes skipped)"

/-- The paths of declarations. -/
def resourcePath (position : Nat) : Path := [.field "resources", .item position]

def passPath (position : Nat) : Path := [.field "passes", .item position]

def colorPath (p : Path) (i : Nat) : Path := ((p.field "attachments").field "color").item i

def depthPath (p : Path) : Path := (p.field "attachments").field "depth"

def usePath (p : Path) : UseMode → Nat → Path
  | .read, i => (p.field "reads").item i
  | .write, i => (p.field "writes").item i

def presentPath : Path := [.field "outputs", .field "present"]

def exportImagePath (i : Nat) : Path := [.field "outputs", .field "export_images", .item i]

def exportBufferPath (i : Nat) : Path := [.field "outputs", .field "export_buffers", .item i]

/-- An image comes out with no layers in this frame. -/
def noLayers (position : Nat) (name : String) : Error :=
  ⟨.semantic, ((resourcePath position).field "layers_source").render,
    s!"image '{name}' resolves to 0 layers"⟩

/-- A name is that of no resource of the type in this build. -/
def absent (what : String) (p : Path) (name : String) : Error :=
  ⟨.semantic, p.render,
    s!"{what} '{name}' is not materialized in this build (skipped by its condition or repeat)"⟩

def absentImage : Path → String → Error := absent "image"

def absentBuffer : Path → String → Error := absent "buffer"

def noExecutor (position : Nat) (execute pass : String) : Error :=
  ⟨.semantic, ((passPath position).field "execute").render,
    s!"no executor registered under '{execute}' (pass '{pass}')"⟩

end Build

end FrameGraph
