import FrameGraph.Engine.Basic
import FrameGraph.Template

namespace FrameGraph

/-- The access in which an imported image starts. -/
def importAccess : ImageAccess := .present

/-- The image that a resource with an image declares at an iteration. -/
def Resource.imageRequest (r : Resource) (i : Image) (frame : Frame) (iteration : UInt32) :
    ImageRequest where
  name := Template.expand r.name iteration
  source := i.importName.map fun name => ⟨name, importAccess⟩
  description :=
    { size := frame.extent i.extent
      layers := frame.layers i.layers
      format := frame.format i.format
      usage := i.usage
      flags := r.flags }

/-- The buffer that a resource with a buffer declares at an iteration. -/
def Resource.bufferRequest (r : Resource) (b : Buffer) (iteration : UInt32) : BufferRequest where
  name := Template.expand r.name iteration
  description := { size := b.size, usage := b.usage, flags := r.flags }

/-- The pass that a declaration adds at an iteration. -/
def Pass.request (p : Pass) (iteration : UInt32) : PassRequest where
  type := p.work.type
  name := Template.expand p.name iteration

def Slice.range (s : Slice) (iteration : UInt32) : Range :=
  ⟨s.mipLevel, s.baseLayer.resolve iteration, s.layerCount⟩

/-- The attachment at an iteration; `clearValue` wraps what it is cleared to. -/
def Attachment.describe {γ : Type} (clearValue : γ → ClearValue) (a : Attachment γ)
    (iteration : UInt32) : AttachmentDescription where
  load := a.load
  store := a.store
  clear := a.clear.map clearValue
  range := a.slice.map (·.range iteration)

def Use.bindingAt (u : Use) (iteration : UInt32) : Binding :=
  ⟨u.binding.map (·.resolve iteration), u.arrayIndex.map (·.resolve iteration)⟩

end FrameGraph
