import FrameGraph.Action
import FrameGraph.Frame

namespace FrameGraph

structure ImageDescription where
  size : Size
  layers : UInt32
  format : Format
  usage : FlagSet TextureUsage
  flags : FlagSet ResourceFlag
  deriving DecidableEq

/-- The external image behind an imported one, and the access it is in when the graph starts. -/
structure Import where
  name : String
  access : ImageAccess
  deriving DecidableEq, Repr

/-- An image to be declared: imported, or created when it is not. -/
structure ImageRequest where
  name : String
  source : Option Import
  description : ImageDescription
  deriving DecidableEq

structure BufferDescription where
  size : UInt64
  usage : FlagSet BufferUsage
  flags : FlagSet ResourceFlag
  deriving DecidableEq

structure BufferRequest where
  name : String
  description : BufferDescription
  deriving DecidableEq

structure PassRequest where
  type : PassType
  name : String
  deriving DecidableEq

inductive ClearValue where
  | color (value : Color)
  | depthStencil (value : DepthStencil)
  deriving BEq

/-- The mip level and the layers that an attachment binds. -/
structure Range where
  mipLevel : UInt32
  baseLayer : UInt32
  layerCount : UInt32
  deriving DecidableEq, Repr

structure AttachmentDescription where
  load : LoadOp
  store : StoreOp
  clear : Option ClearValue
  /-- the part of the image, if not all of it -/
  range : Option Range
  deriving BEq

/-- Where a use is bound in the shaders of its pass. -/
structure Binding where
  binding : Option UInt32
  arrayIndex : Option UInt32
  deriving DecidableEq, Repr

inductive UseMode where
  | read
  | write
  deriving DecidableEq, Repr

/-- What an engine is told once it has given out handles; it answers nothing but success. -/
inductive Command (ι β π ε : Type) where
  | setFlags (pass : π) (flags : FlagSet PassFlag)
  | setDomain (pass : π) (domain : Domain)
  | setExecutor (pass : π) (executor : ε)
  | addColor (pass : π) (image : ι) (attachment : AttachmentDescription)
  | setDepth (pass : π) (image : ι) (attachment : AttachmentDescription) (readOnly : Bool)
  | useImage (mode : UseMode) (pass : π) (image : ι) (access : ImageAccess) (binding : Binding)
  | useBuffer (mode : UseMode) (pass : π) (buffer : β) (access : BufferAccess) (binding : Binding)
  | setPresent (image : ι)
  | exportImage (image : ι)
  | exportBuffer (buffer : β)

/-- An engine with states `σ`, handles `ι`, `β` and `π` of images, buffers and passes, and executors
`ε`. It may refuse anything. -/
structure Engine (σ ι β π ε : Type) where
  image : ImageRequest → Action σ ι
  buffer : BufferRequest → Action σ β
  pass : PassRequest → Action σ π
  command : Command ι β π ε → Action σ Unit

end FrameGraph
