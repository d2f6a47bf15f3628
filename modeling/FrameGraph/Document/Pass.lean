import FrameGraph.Document.Listing
import FrameGraph.Document.Resource

namespace FrameGraph.Document

variable {m : Type → Type} [Monad m] [Reporting m]

/-- The name is that of a declared resource of a type. -/
def expect (declared : Listing Resource) (p : Path) (name : String) (type : ResourceType) :
    m Unit :=
  match declared.names[name]? with
  | none => blame ⟨p, .undeclared name⟩
  | some i =>
    match declared.entries[i]? with
    | none => blame ⟨p, .outOfBounds i declared.entries.length⟩
    | some r => if r.type = type then return else blame ⟨p, .wrongType name r.type type⟩

namespace Fields

/-- The resource that a use names, by the field that gives its type. -/
def used (o : Fields) : m (String × ResourceType) := do
  let image ← o.optional "image" Reader.text
  let buffer ← o.optional "buffer" Reader.text
  match image, buffer with
  | some name, none => return (name, .image)
  | none, some name => return (name, .buffer)
  | some _, some _ => blame ⟨o.path, .useOfBoth⟩
  | none, none => blame ⟨o.path, .useOfNothing⟩

/-- The access of a use; each type of resource has its own words. -/
def access (o : Fields) : ResourceType → m Access
  | .image => .image <$> o.required "access" (Reader.spelled Vocabulary.imageAccesses)
  | .buffer => .buffer <$> o.required "access" (Reader.spelled Vocabulary.bufferAccesses)

/-- What a pass does; a domain is required of graphics and refused to all else. -/
def work (o : Fields) : PassType → m Work
  | .graphics => .graphics <$> o.required "domain" (Reader.spelled Vocabulary.domains)
  | .compute => other .compute
  | .transfer => other .transfer
where
  other (w : Work) : m Work :=
    if o.has "domain" then blame ⟨o.pathOf "domain", .domainOfOther⟩ else return w

end Fields

namespace Reader

def use (declared : Listing Resource) : Reader m Use := fun p j => do
  let o ← object p j
  let (name, type) ← o.used
  let key := match type with
    | .image => "image"
    | .buffer => "buffer"
  expect declared (o.pathOf key) name type
  let access ← o.access type
  let repetition ← o.repetition
  let binding ← o.optional "binding" index
  let arrayIndex ← o.optional "array_index" index
  return { name, access, repetition, binding, arrayIndex }

/-- Four numbers. -/
def color : Reader m Color
  | p, .array [r, g, b, a] => do
    let red ← single (p.item 0) r
    let green ← single (p.item 1) g
    let blue ← single (p.item 2) b
    let alpha ← single (p.item 3) a
    return { red, green, blue, alpha }
  | p, .array js => blame ⟨p, .colorLength js.length⟩
  | p, _ => blame ⟨p, .colorShape⟩

/-- A depth alone, or an object with a depth and a stencil. -/
def depthStencil : Reader m DepthStencil := fun p j => do
  if j.isNumber then return { depth := ← single p j, stencil := 0 }
  let o ← object p j
  let depth ← o.optional "depth" single
  let stencil ← o.optional "stencil" word
  return { depth := depth.getD .one, stencil := stencil.getD 0 }

def slice : Reader m Slice := fun p j => do
  let o ← object p j
  let layerCount := (← o.optional "layer_count" word).getD 1
  if layerCount = 0 then blame ⟨o.pathOf "layer_count", .emptySlice⟩
  let mipLevel ← o.optional "mip_level" word
  let baseLayer ← o.optional "base_layer" index
  return { mipLevel := mipLevel.getD 0, baseLayer := baseLayer.getD (.literal 0), layerCount }

/-- An attachment and what its field `read_only` says, which is read before the slice. -/
def attachment {γ β : Type} (declared : Listing Resource) (clear : Reader m γ)
    (readOnly : Fields → m β) (o : Fields) : m (Attachment γ × β) := do
  let image ← o.required "image" name
  expect declared (o.pathOf "image") image .image
  let loadOp ← o.required "load" (spelled Vocabulary.loadOps)
  let storeOp ← o.required "store" (spelled Vocabulary.storeOps)
  let clear ← o.optional "clear" clear
  let only ← readOnly o
  let slice ← o.optional "slice" slice
  return ({ image, load := loadOp, store := storeOp, clear, slice }, only)

/-- A color attachment has no `read_only`, whatever its value. -/
def colorAttachment (declared : Listing Resource) : Reader m (Attachment Color) := fun p j => do
  let o ← object p j
  let (a, _) ← attachment declared color (fun o => do
    if (← o.optional "read_only" boolean).isSome then
      blame ⟨o.pathOf "read_only", .readOnlyColor⟩) o
  return a

def depthAttachment (declared : Listing Resource) : Reader m DepthAttachment := fun p j => do
  let o ← object p j
  let (attachment, readOnly) ← attachment declared depthStencil (fun o => do
    return (← o.optional "read_only" boolean).getD false) o
  return { attachment, readOnly }

def attachments (declared : Listing Resource) : Reader m Attachments := fun p j => do
  let o ← object p j
  let colors ← o.listOrEmpty "color" (colorAttachment declared)
  let depth ← o.optional "depth" (depthAttachment declared)
  return { colors, depth }

def pass (declared : Listing Resource) : Reader m Pass := fun p j => do
  let o ← object p j
  let name ← o.required "name" name
  let type ← o.required "type" (spelled Vocabulary.passTypes)
  let condition ← o.condition
  let repetition ← o.repetition
  let flags ← o.flags "flags" "pass flag"
  let work ← o.work type
  let reads ← o.listOrEmpty "reads" (use declared)
  let writes ← o.listOrEmpty "writes" (use declared)
  let attachments := (← o.optional "attachments" (attachments declared)).getD .none
  if type = .graphics && attachments.isEmpty then
    blame ⟨o.pathOf "attachments", .noAttachment name⟩
  let execute ← o.required "execute" Reader.name
  return { name, work, flags, condition, repetition, reads, writes, attachments, execute }

/-- Names of declared resources of one type. That all items are strings is checked first. -/
def exports (declared : Listing Resource) (type : ResourceType) : Reader m (List String) :=
  fun p j => do
    let names ← list (located text) p j
    names.forM fun (p, name) => expect declared p name type
    return names.map Prod.snd

def outputs (declared : Listing Resource) : Reader m Outputs := fun p j => do
  let o ← object p j
  let present ← o.optional "present" (fun p j => do
    let name ← text p j
    expect declared p name .image
    return name)
  let images ← o.optional "export_images" (exports declared .image)
  let buffers ← o.optional "export_buffers" (exports declared .buffer)
  return { present, exportImages := images.getD [], exportBuffers := buffers.getD [] }

end Reader

end FrameGraph.Document
