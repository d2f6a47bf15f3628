import FrameGraph.Text.Named

namespace FrameGraph

inductive ResourceType where
  | image
  | buffer
  deriving DecidableEq, Repr

instance : Named ResourceType where
  all := [.image, .buffer]
  name
    | .image => "Image"
    | .buffer => "Buffer"

inductive PassType where
  | graphics
  | compute
  | transfer
  deriving DecidableEq, Repr

instance : Named PassType where
  all := [.graphics, .compute, .transfer]
  name
    | .graphics => "Graphics"
    | .compute => "Compute"
    | .transfer => "Transfer"

/-- What a graphics pass draws. -/
inductive Domain where
  | world
  | ui
  | shadow
  | post
  | skybox
  deriving DecidableEq, Repr

instance : Named Domain where
  all := [.world, .ui, .shadow, .post, .skybox]
  name
    | .world => "World"
    | .ui => "Ui"
    | .shadow => "Shadow"
    | .post => "Post"
    | .skybox => "Skybox"

/-- How a pass uses an image. -/
inductive ImageAccess where
  | sampled
  | storageRead
  | storageWrite
  | colorAttachment
  | depthAttachment
  | depthReadOnly
  | transferSrc
  | transferDst
  | present
  deriving DecidableEq, Repr

instance : Named ImageAccess where
  all := [.sampled, .storageRead, .storageWrite, .colorAttachment, .depthAttachment, .depthReadOnly,
    .transferSrc, .transferDst, .present]
  name
    | .sampled => "Sampled"
    | .storageRead => "StorageRead"
    | .storageWrite => "StorageWrite"
    | .colorAttachment => "ColorAttachment"
    | .depthAttachment => "DepthAttachment"
    | .depthReadOnly => "DepthReadOnly"
    | .transferSrc => "TransferSrc"
    | .transferDst => "TransferDst"
    | .present => "Present"

/-- How a pass uses a buffer. -/
inductive BufferAccess where
  | vertex
  | index
  | uniform
  | storageRead
  | storageWrite
  | transferSrc
  | transferDst
  deriving DecidableEq, Repr

instance : Named BufferAccess where
  all := [.vertex, .index, .uniform, .storageRead, .storageWrite, .transferSrc, .transferDst]
  name
    | .vertex => "Vertex"
    | .index => "Index"
    | .uniform => "Uniform"
    | .storageRead => "StorageRead"
    | .storageWrite => "StorageWrite"
    | .transferSrc => "TransferSrc"
    | .transferDst => "TransferDst"

inductive Format where
  | r8g8b8a8Unorm
  | r8g8b8a8Srgb
  | r8g8b8a8Uint
  | r8g8b8a8Snorm
  | r8g8b8a8Sint
  | b8g8r8a8Unorm
  | b8g8r8a8Srgb
  | r8Unorm
  | r16Sfloat
  | r32Sfloat
  | r32Uint
  | r8g8Unorm
  | d16Unorm
  | d32Sfloat
  | d24UnormS8Uint
  deriving DecidableEq, Repr

instance : Named Format where
  all := [.r8g8b8a8Unorm, .r8g8b8a8Srgb, .r8g8b8a8Uint, .r8g8b8a8Snorm, .r8g8b8a8Sint,
    .b8g8r8a8Unorm, .b8g8r8a8Srgb, .r8Unorm, .r16Sfloat, .r32Sfloat, .r32Uint, .r8g8Unorm,
    .d16Unorm, .d32Sfloat, .d24UnormS8Uint]
  name
    | .r8g8b8a8Unorm => "R8G8B8A8_UNORM"
    | .r8g8b8a8Srgb => "R8G8B8A8_SRGB"
    | .r8g8b8a8Uint => "R8G8B8A8_UINT"
    | .r8g8b8a8Snorm => "R8G8B8A8_SNORM"
    | .r8g8b8a8Sint => "R8G8B8A8_SINT"
    | .b8g8r8a8Unorm => "B8G8R8A8_UNORM"
    | .b8g8r8a8Srgb => "B8G8R8A8_SRGB"
    | .r8Unorm => "R8_UNORM"
    | .r16Sfloat => "R16_SFLOAT"
    | .r32Sfloat => "R32_SFLOAT"
    | .r32Uint => "R32_UINT"
    | .r8g8Unorm => "R8G8_UNORM"
    | .d16Unorm => "D16_UNORM"
    | .d32Sfloat => "D32_SFLOAT"
    | .d24UnormS8Uint => "D24_UNORM_S8_UINT"

/-- The format holds depth, with or without a stencil. -/
def Format.isDepth : Format → Bool
  | .d16Unorm => true
  | .d32Sfloat => true
  | .d24UnormS8Uint => true
  | _ => false

/-- What an attachment holds when its pass starts. -/
inductive LoadOp where
  | load
  | clear
  | dontCare
  deriving DecidableEq, Repr

instance : Named LoadOp where
  all := [.load, .clear, .dontCare]
  name
    | .load => "Load"
    | .clear => "Clear"
    | .dontCare => "DontCare"

/-- What becomes of an attachment when its pass ends. -/
inductive StoreOp where
  | store
  | dontCare
  deriving DecidableEq, Repr

instance : Named StoreOp where
  all := [.store, .dontCare]
  name
    | .store => "Store"
    | .dontCare => "DontCare"

end FrameGraph
