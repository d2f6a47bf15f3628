import FrameGraph.Engine.Basic
import FrameGraph.Engine.Store

namespace FrameGraph

abbrev ImageKey : Type := Key ImageRequest

abbrev BufferKey : Type := Key BufferRequest

abbrev PassKey : Type := Key PassRequest

/-- The index of the key that is never given out. -/
def PassKey.null : Nat := UInt32.size - 1

/-- The key as messages show it. -/
def PassKey.shown (k : PassKey) : String :=
  if k.index = null then "PassKey(null)" else s!"PassKey({k.index}v{k.version})"

structure AttachmentRecord where
  image : ImageKey
  description : AttachmentDescription
  readOnly : Bool
  deriving BEq

/-- A use of a resource with a key of type `κ` and accesses of type `α`. -/
structure UseRecord (κ α : Type) where
  resource : κ
  access : α
  binding : Binding
  deriving DecidableEq

structure PassRecord (ε : Type) where
  name : String
  type : PassType
  flags : FlagSet PassFlag := .empty
  domain : Option Domain := none
  executor : Option ε := none
  colors : List AttachmentRecord := []
  depth : Option AttachmentRecord := none
  imageReads : List (UseRecord ImageKey ImageAccess) := []
  imageWrites : List (UseRecord ImageKey ImageAccess) := []
  bufferReads : List (UseRecord BufferKey BufferAccess) := []
  bufferWrites : List (UseRecord BufferKey BufferAccess) := []

namespace PassRecord

variable {ε : Type} (p : PassRecord ε)

def addImage (u : UseRecord ImageKey ImageAccess) : UseMode → PassRecord ε
  | .read => { p with imageReads := p.imageReads ++ [u] }
  | .write => { p with imageWrites := p.imageWrites ++ [u] }

def addBuffer (u : UseRecord BufferKey BufferAccess) : UseMode → PassRecord ε
  | .read => { p with bufferReads := p.bufferReads ++ [u] }
  | .write => { p with bufferWrites := p.bufferWrites ++ [u] }

end PassRecord

/-- Everything declared so far. Images, buffers and passes have distinct names among their kind. -/
structure Recording (ε : Type) where
  imageStore : Store ImageRequest ImageRequest := {}
  bufferStore : Store BufferRequest BufferRequest := {}
  passStore : Store PassRequest (PassRecord ε) := {}
  present : Option ImageKey := none
  exportedImages : List ImageKey := []
  exportedBuffers : List BufferKey := []

namespace Recording

variable {ε τ α : Type}

def origin : Origin := { source := "galaxy3d::RecordedGraph", file := "FrameGraph/Engine/Recording.lean" }

/-- The recording of nothing, with the keys that it is going to give out. -/
def empty (images : Allotment ImageRequest) (buffers : Allotment BufferRequest)
    (passes : Allotment PassRequest) : Recording ε where
  imageStore := { allotment := images }
  bufferStore := { allotment := buffers }
  passStore := { allotment := passes }

/-- The images in the order of their declaration. -/
def images (r : Recording ε) : List ImageRequest := r.imageStore.records

def image? (r : Recording ε) (k : ImageKey) : Option ImageRequest := r.imageStore.get? k

def imageKey? (r : Recording ε) (name : String) : Option ImageKey := r.imageStore.key? name

def imageNamed? (r : Recording ε) (name : String) : Option ImageRequest := r.imageStore.named? name

def buffers (r : Recording ε) : List BufferRequest := r.bufferStore.records

def buffer? (r : Recording ε) (k : BufferKey) : Option BufferRequest := r.bufferStore.get? k

def bufferKey? (r : Recording ε) (name : String) : Option BufferKey := r.bufferStore.key? name

def bufferNamed? (r : Recording ε) (name : String) : Option BufferRequest := r.bufferStore.named? name

def passes (r : Recording ε) : List (PassRecord ε) := r.passStore.records

def pass? (r : Recording ε) (k : PassKey) : Option (PassRecord ε) := r.passStore.get? k

def passKey? (r : Recording ε) (name : String) : Option PassKey := r.passStore.key? name

def passNamed? (r : Recording ε) (name : String) : Option (PassRecord ε) := r.passStore.named? name

def passNames (r : Recording ε) : List String := r.passes.map (·.name)

def presentImage? (r : Recording ε) : Option ImageRequest := r.present.bind r.image?

/-- The error of a second declaration of a name. -/
def declared (what name : String) : Error :=
  ⟨.semantic, name, s!"{what} '{name}' is already declared"⟩

/-- Adds a record to one of the stores, which must not have the name yet. -/
def declare (what name : String) (a : α) (store : Recording ε → Store τ α)
    (put : Recording ε → Store τ α → Recording ε) : Action (Recording ε) (Key τ) := do
  let r ← Action.get
  if ((store r).key? name).isSome then Action.fail origin (declared what name)
  Action.set (put r ((store r).add name a))
  return (store r).next

def declareImage (q : ImageRequest) : Action (Recording ε) ImageKey :=
  declare "image" q.name q imageStore fun r imageStore => { r with imageStore }

def declareBuffer (q : BufferRequest) : Action (Recording ε) BufferKey :=
  declare "buffer" q.name q bufferStore fun r bufferStore => { r with bufferStore }

def declarePass (q : PassRequest) : Action (Recording ε) PassKey :=
  declare "pass" q.name { name := q.name, type := q.type } passStore
    fun r passStore => { r with passStore }

/-- Changes the pass of a key. -/
def updatePass (k : PassKey) (change : PassRecord ε → PassRecord ε) : Action (Recording ε) Unit := do
  let r ← Action.get
  if (r.pass? k).isNone then
    Action.fail origin ⟨.semantic, "pass", s!"invalid pass key {k.shown}"⟩
  Action.set { r with passStore := r.passStore.modify k change }

/-- A command to a pass that was never declared fails and changes nothing; images and buffers that a
command names are not looked up. -/
def perform : Command ImageKey BufferKey PassKey ε → Action (Recording ε) Unit
  | .setFlags pass flags => updatePass pass fun p => { p with flags }
  | .setDomain pass domain => updatePass pass fun p => { p with domain }
  | .setExecutor pass executor => updatePass pass fun p => { p with executor }
  | .addColor pass image description =>
    updatePass pass fun p => { p with colors := p.colors ++ [⟨image, description, false⟩] }
  | .setDepth pass image description readOnly =>
    updatePass pass fun p => { p with depth := some ⟨image, description, readOnly⟩ }
  | .useImage mode pass image access binding =>
    updatePass pass fun p => p.addImage ⟨image, access, binding⟩ mode
  | .useBuffer mode pass buffer access binding =>
    updatePass pass fun p => p.addBuffer ⟨buffer, access, binding⟩ mode
  | .setPresent image => do
    let r ← Action.get
    if r.present.isSome then
      Action.fail origin ⟨.semantic, "present", "present image is already set"⟩
    Action.set { r with present := some image }
  | .exportImage image => fun r =>
    ⟨{ r with exportedImages := r.exportedImages ++ [image] }, [], .ok ()⟩
  | .exportBuffer buffer => fun r =>
    ⟨{ r with exportedBuffers := r.exportedBuffers ++ [buffer] }, [], .ok ()⟩

/-- The engine that records. -/
def engine : Engine (Recording ε) ImageKey BufferKey PassKey ε where
  image := declareImage
  buffer := declareBuffer
  pass := declarePass
  command := perform

end Recording

end FrameGraph
