import FrameGraph.Graph.Flag
import FrameGraph.Graph.Kind
import FrameGraph.Number.Single
import FrameGraph.Table

namespace FrameGraph

/-- The number in the frame that counts cascades. -/
inductive CountSource where
  | shadowCascadeCount
  deriving DecidableEq, Repr

instance : Named CountSource where
  all := [.shadowCascadeCount]
  name
    | .shadowCascadeCount => "ShadowCascadeCount"

/-- The number in the frame that is the side of a square. -/
inductive SizeSource where
  | shadowMapSize
  deriving DecidableEq, Repr

instance : Named SizeSource where
  all := [.shadowMapSize]
  name
    | .shadowMapSize => "ShadowMapSize"

/-- When a declaration takes part in a frame. -/
inductive Condition where
  | always
  | editorEnabled
  | editorDisabled
  deriving DecidableEq, Repr

instance : Named Condition where
  all := [.always, .editorEnabled, .editorDisabled]
  name
    | .always => "None"
    | .editorEnabled => "EditorEnabled"
    | .editorDisabled => "EditorDisabled"

/-- How often a declaration is instantiated: once, or as often as the frame says. -/
inductive Repetition where
  | once
  | counted (source : CountSource)
  deriving DecidableEq, Repr

/-- A literal index, or that of the iteration. -/
inductive Index where
  | literal (value : UInt32)
  | iteration
  deriving DecidableEq, Repr

inductive Extent where
  | window
  | viewport
  | fixed (width height : UInt32)
  | square (source : SizeSource)
  deriving DecidableEq, Repr

inductive Layers where
  | fixed (count : UInt32)
  | counted (source : CountSource)
  deriving DecidableEq, Repr

inductive FormatSource where
  | explicit (format : Format)
  | swapchain
  | swapchainDepth
  | shadowDepth
  deriving DecidableEq, Repr

structure Image where
  /-- the external image that this one stands for -/
  importName : Option String
  extent : Extent
  layers : Layers
  format : FormatSource
  usage : FlagSet TextureUsage
  deriving DecidableEq

def Image.isImport (i : Image) : Bool := i.importName.isSome

structure Buffer where
  size : UInt64
  usage : FlagSet BufferUsage
  deriving DecidableEq

inductive ResourceBody where
  | image (image : Image)
  | buffer (buffer : Buffer)
  deriving DecidableEq

def ResourceBody.type : ResourceBody → ResourceType
  | .image _ => .image
  | .buffer _ => .buffer

structure Resource where
  name : String
  condition : Condition
  repetition : Repetition
  flags : FlagSet ResourceFlag
  body : ResourceBody
  deriving DecidableEq

namespace Resource

def type (r : Resource) : ResourceType := r.body.type

def image? (r : Resource) : Option Image :=
  match r.body with
  | .image i => some i
  | .buffer _ => none

def buffer? (r : Resource) : Option Buffer :=
  match r.body with
  | .image _ => none
  | .buffer b => some b

end Resource

/-- How a use accesses its resource; the kind of access is the kind of resource. -/
inductive Access where
  | image (access : ImageAccess)
  | buffer (access : BufferAccess)
  deriving DecidableEq, Repr

def Access.type : Access → ResourceType
  | .image _ => .image
  | .buffer _ => .buffer

/-- A read or write of a resource by a pass. -/
structure Use where
  name : String
  access : Access
  /-- the use's own repetition, apart from that of its pass -/
  repetition : Repetition
  binding : Option Index
  arrayIndex : Option Index
  deriving DecidableEq

/-- The part of an image that an attachment binds. -/
structure Slice where
  mipLevel : UInt32
  baseLayer : Index
  layerCount : UInt32
  deriving DecidableEq

structure Color where
  red : Single
  green : Single
  blue : Single
  alpha : Single
  deriving BEq

structure DepthStencil where
  depth : Single
  stencil : UInt32
  deriving BEq

/-- An attachment; `γ` is what it may be cleared to. -/
structure Attachment (γ : Type) where
  image : String
  load : LoadOp
  store : StoreOp
  clear : Option γ
  slice : Option Slice
  deriving BEq

structure DepthAttachment where
  attachment : Attachment DepthStencil
  readOnly : Bool
  deriving BEq

structure Attachments where
  colors : List (Attachment Color)
  depth : Option DepthAttachment
  deriving BEq

def Attachments.none : Attachments := ⟨[], .none⟩

def Attachments.isEmpty (a : Attachments) : Bool := a.colors.isEmpty && a.depth.isNone

/-- What a pass does on the device. Graphics alone has a domain. -/
inductive Work where
  | graphics (domain : Domain)
  | compute
  | transfer
  deriving DecidableEq, Repr

namespace Work

def type : Work → PassType
  | graphics _ => .graphics
  | compute => .compute
  | transfer => .transfer

def domain? : Work → Option Domain
  | graphics d => some d
  | compute => none
  | transfer => none

theorem domain?_isSome_iff (w : Work) : w.domain?.isSome ↔ w.type = .graphics := by
  cases w <;> simp [domain?, type]

end Work

structure Pass where
  name : String
  work : Work
  flags : FlagSet PassFlag
  condition : Condition
  repetition : Repetition
  reads : List Use
  writes : List Use
  attachments : Attachments
  /-- the name of the executor, looked up when the graph is built -/
  execute : String
  deriving BEq

/-- What leaves the graph. Outputs are neither repeated nor conditional. -/
structure Outputs where
  present : Option String
  exportImages : List String
  exportBuffers : List String
  deriving DecidableEq

def Outputs.none : Outputs := ⟨.none, [], []⟩

/-- A frame graph. Equality is that of the parts; clear values are compared as numbers. -/
structure Graph where
  version : UInt32
  name : String
  resources : List Resource
  passes : List Pass
  outputs : Outputs
  /-- the positions of resources by name -/
  resourceNames : Table Nat
  /-- the positions of passes by name -/
  passNames : Table Nat
  deriving BEq

namespace Graph

/-- The one version of documents. -/
def currentVersion : UInt32 := 1

def resource? (g : Graph) (name : String) : Option Resource :=
  g.resourceNames[name]?.bind (g.resources[·]?)

def pass? (g : Graph) (name : String) : Option Pass :=
  g.passNames[name]?.bind (g.passes[·]?)

end Graph

end FrameGraph
