import FrameGraph.Document.Word
import FrameGraph.Proofs.Table
import Mathlib.Data.List.Forall2

namespace FrameGraph.Document

open Text (Vocabulary folded trimmed)

variable {α : Type}

/-- Which values stand for what. -/
abbrev Form (α : Type) := Json → α → Prop

/-- The fields of an object. -/
abbrev Entries := List (String × Json)

/-- The field is absent or null. -/
def Lacks (o : Entries) (key : String) : Prop := ∀ j, (key, j) ∈ o → j = .null

/-- The field is there with a value that is not null; it is the first such field of its key. -/
def Has (o : Entries) (key : String) (j : Json) : Prop :=
  j ≠ .null ∧ ∃ before after, o = before ++ (key, j) :: after ∧ Lacks before key

/-- The field is there and stands for `a`. -/
def Holds (o : Entries) (key : String) (form : Form α) (a : α) : Prop := ∃ j, Has o key j ∧ form j a

def MayHold (o : Entries) (key : String) (form : Form α) : Option α → Prop
  | some a => Holds o key form a
  | none => Lacks o key

/-- A field that stands for `default` when it is absent or null. -/
def HoldsOr (o : Entries) (key : String) (form : Form α) (default a : α) : Prop :=
  Holds o key form a ∨ Lacks o key ∧ a = default

/-- The vocabulary has a word for `a` that the text spells, but for blanks around it and the case of
ASCII letters. -/
def Spells (v : Vocabulary α) (s : String) (a : α) : Prop :=
  ∃ w, (w, a) ∈ v.words ∧ folded (trimmed s) = folded w

/-- How the extent of an image is given. -/
inductive ExtentMode where
  | window
  | viewport
  | fixed
  | square
  deriving DecidableEq, Repr

def Vocabulary.extentModes : Vocabulary ExtentMode where
  noun := "extent mode"
  words := [("window", .window), ("viewport", .viewport), ("fixed", .fixed), ("square", .square)]

/-- Flags are spelled as they are named. -/
def Vocabulary.flags (φ : Type) [Flag φ] (noun : String) : Vocabulary φ where
  noun := noun
  words := Named.all.map fun f => (Named.name f, f)

/-- The name is that of a declared resource of the type. -/
def Declared (declared : List Resource) (type : ResourceType) (name : String) : Prop :=
  ∃ r ∈ declared, r.name = name ∧ r.type = type

namespace Form

def text : Form String := fun j s => j = .text s

def boolean : Form Bool := fun j b => j = .boolean b

def single : Form Single := fun j x => j.single? = some x

/-- A natural of 64 bits. -/
def long : Form UInt64 := fun j n => j = .natural n

/-- A natural below 2³². -/
def word : Form UInt32 := fun j n => ∃ m : UInt64, j = .natural m ∧ m.toNat = n.toNat

/-- A string with at least one character. -/
def name : Form String := fun j s => j = .text s ∧ s ≠ ""

def token (v : Vocabulary α) : Form α := fun j a => ∃ s, j = .text s ∧ Spells v s a

def list (form : Form α) : Form (List α) := fun j as => ∃ js, j = .array js ∧ List.Forall₂ form js as

def object (fields : Entries → α → Prop) : Form α := fun j a => ∃ o, j = .object o ∧ fields o a

/-- An array of names of flags stands for the set of the flags named. -/
def flags {φ : Type} [Flag φ] (noun : String) : Form (FlagSet φ) := fun j s =>
  ∃ fs, list (token (Vocabulary.flags φ noun)) j fs ∧ s = fs.foldl .insert .empty

/-- A literal, or a string that is the token of templates or the letter `i`. -/
def index : Form Index := fun j i =>
  match i with
  | .literal n => word j n
  | .iteration => ∃ s, j = .text s ∧
      ((trimmed s).toList = Template.token ∨ folded (trimmed s) = folded "i")

end Form

inductive RepetitionFields (o : Entries) : Repetition → Prop where
  | counted {source : CountSource}
      (h : Holds o "count_source" (.token Vocabulary.repeatCounts) source) :
      RepetitionFields o (.counted source)

inductive ExtentFields (o : Entries) : Extent → Prop where
  | window (hmode : Holds o "mode" (.token Vocabulary.extentModes) .window) (hw : Lacks o "width")
      (hh : Lacks o "height") (hs : Lacks o "size_source") : ExtentFields o .window
  | viewport (hmode : Holds o "mode" (.token Vocabulary.extentModes) .viewport)
      (hw : Lacks o "width") (hh : Lacks o "height") (hs : Lacks o "size_source") :
      ExtentFields o .viewport
  | fixed {width height : UInt32} (hmode : Holds o "mode" (.token Vocabulary.extentModes) .fixed)
      (hw : Holds o "width" .word width) (hh : Holds o "height" .word height) (hwidth : width ≠ 0)
      (hheight : height ≠ 0) (hs : Lacks o "size_source") : ExtentFields o (.fixed width height)
  | square {source : SizeSource} (hmode : Holds o "mode" (.token Vocabulary.extentModes) .square)
      (hs : Holds o "size_source" (.token Vocabulary.sizeSources) source) (hw : Lacks o "width")
      (hh : Lacks o "height") : ExtentFields o (.square source)

/-- A number of layers or its source, or neither of them. -/
inductive LayersFields (o : Entries) : Layers → Prop where
  | fixed {n : UInt32} (h : Holds o "layers" .word n) (hn : n ≠ 0) (hs : Lacks o "layers_source") :
      LayersFields o (.fixed n)
  | counted {source : CountSource}
      (h : Holds o "layers_source" (.token Vocabulary.layerCounts) source) (hn : Lacks o "layers") :
      LayersFields o (.counted source)
  | single (hn : Lacks o "layers") (hs : Lacks o "layers_source") : LayersFields o (.fixed 1)

/-- Only an imported image may leave out its extent and its format, and be used for nothing. -/
structure ImageFields (o : Entries) (i : Image) : Prop where
  importName : MayHold o "import" .text i.importName
  extent : HoldsOr o "extent" (.object ExtentFields) .window i.extent
  layers : LayersFields o i.layers
  format : HoldsOr o "format" (.token Vocabulary.formats) .swapchain i.format
  usage : HoldsOr o "usage" (.flags "texture usage") .empty i.usage
  complete : i.importName = none →
    ¬Lacks o "extent" ∧ ¬Lacks o "format" ∧ i.usage.isEmpty = false

structure BufferFields (o : Entries) (b : Buffer) : Prop where
  size : Holds o "size" .long b.size
  usage : HoldsOr o "usage" (.flags "buffer usage") .empty b.usage
  nonempty : b.size ≠ 0 ∧ b.usage.isEmpty = false

def BodyFields (o : Entries) : ResourceBody → Prop
  | .image i => ImageFields o i
  | .buffer b => BufferFields o b

structure ResourceFields (o : Entries) (r : Resource) : Prop where
  name : Holds o "name" .name r.name
  type : Holds o "type" (.token Vocabulary.resourceTypes) r.type
  condition : HoldsOr o "condition" (.token Vocabulary.conditions) .always r.condition
  repetition : HoldsOr o "repeat" (.object RepetitionFields) .once r.repetition
  flags : HoldsOr o "flags" (.flags "resource flag") .empty r.flags
  body : BodyFields o r.body

/-- A use names an image or a buffer, and has an access to it. -/
inductive AccessFields (o : Entries) (name : String) : Access → Prop where
  | image {access : ImageAccess} (hname : Holds o "image" .text name) (hno : Lacks o "buffer")
      (h : Holds o "access" (.token Vocabulary.imageAccesses) access) :
      AccessFields o name (.image access)
  | buffer {access : BufferAccess} (hname : Holds o "buffer" .text name) (hno : Lacks o "image")
      (h : Holds o "access" (.token Vocabulary.bufferAccesses) access) :
      AccessFields o name (.buffer access)

structure UseFields (declared : List Resource) (o : Entries) (u : Use) : Prop where
  access : AccessFields o u.name u.access
  declared : Declared declared u.access.type u.name
  repetition : HoldsOr o "repeat" (.object RepetitionFields) .once u.repetition
  binding : MayHold o "binding" .index u.binding
  arrayIndex : MayHold o "array_index" .index u.arrayIndex

/-- Four numbers. -/
def Form.color : Form Color := fun j c =>
  ∃ r g b a, j = .array [r, g, b, a] ∧ single r c.red ∧ single g c.green ∧ single b c.blue ∧
    single a c.alpha

structure DepthStencilFields (o : Entries) (d : DepthStencil) : Prop where
  depth : HoldsOr o "depth" .single .one d.depth
  stencil : HoldsOr o "stencil" .word 0 d.stencil

/-- A number is a depth without a stencil. -/
def Form.depthStencil : Form DepthStencil := fun j d =>
  single j d.depth ∧ d.stencil = 0 ∨ object DepthStencilFields j d

structure SliceFields (o : Entries) (s : Slice) : Prop where
  mipLevel : HoldsOr o "mip_level" .word 0 s.mipLevel
  baseLayer : HoldsOr o "base_layer" .index (.literal 0) s.baseLayer
  layerCount : HoldsOr o "layer_count" .word 1 s.layerCount
  nonempty : s.layerCount ≠ 0

structure AttachmentFields {γ : Type} (declared : List Resource) (clear : Form γ) (o : Entries)
    (a : Attachment γ) : Prop where
  image : Holds o "image" .name a.image
  declared : Declared declared .image a.image
  load : Holds o "load" (.token Vocabulary.loadOps) a.load
  store : Holds o "store" (.token Vocabulary.storeOps) a.store
  clear : MayHold o "clear" clear a.clear
  slice : MayHold o "slice" (.object SliceFields) a.slice

structure ColorFields (declared : List Resource) (o : Entries) (a : Attachment Color) : Prop where
  attachment : AttachmentFields declared .color o a
  readOnly : Lacks o "read_only"

structure DepthFields (declared : List Resource) (o : Entries) (d : DepthAttachment) : Prop where
  attachment : AttachmentFields declared .depthStencil o d.attachment
  readOnly : HoldsOr o "read_only" .boolean false d.readOnly

structure AttachmentsFields (declared : List Resource) (o : Entries) (a : Attachments) : Prop where
  colors : HoldsOr o "color" (.list (.object (ColorFields declared))) [] a.colors
  depth : MayHold o "depth" (.object (DepthFields declared)) a.depth

/-- A domain is given for graphics and for nothing else. -/
def WorkFields (o : Entries) : Work → Prop
  | .graphics domain => Holds o "domain" (.token Vocabulary.domains) domain
  | .compute | .transfer => Lacks o "domain"

structure PassFields (declared : List Resource) (o : Entries) (d : Pass) : Prop where
  name : Holds o "name" .name d.name
  type : Holds o "type" (.token Vocabulary.passTypes) d.work.type
  condition : HoldsOr o "condition" (.token Vocabulary.conditions) .always d.condition
  repetition : HoldsOr o "repeat" (.object RepetitionFields) .once d.repetition
  flags : HoldsOr o "flags" (.flags "pass flag") .empty d.flags
  work : WorkFields o d.work
  reads : HoldsOr o "reads" (.list (.object (UseFields declared))) [] d.reads
  writes : HoldsOr o "writes" (.list (.object (UseFields declared))) [] d.writes
  attachments : HoldsOr o "attachments" (.object (AttachmentsFields declared)) .none d.attachments
  attached : d.work.type = .graphics → d.attachments.isEmpty = false
  execute : Holds o "execute" .name d.execute

/-- A string that names a declared resource of the type. -/
def Form.reference (declared : List Resource) (type : ResourceType) : Form String := fun j name =>
  j = .text name ∧ Declared declared type name

structure OutputsFields (declared : List Resource) (o : Entries) (out : Outputs) : Prop where
  present : MayHold o "present" (.reference declared .image) out.present
  exportImages : HoldsOr o "export_images" (.list (.reference declared .image)) [] out.exportImages
  exportBuffers :
    HoldsOr o "export_buffers" (.list (.reference declared .buffer)) [] out.exportBuffers

structure GraphFields (o : Entries) (g : Graph) : Prop where
  version : Holds o "version" .word g.version ∧ g.version = 1
  name : Holds o "name" .text g.name
  resources : HoldsOr o "resources" (.list (.object ResourceFields)) [] g.resources
  resourceNames : (g.resources.map (·.name)).Nodup
  resourceTable : Tabulates g.resourceNames (g.resources.map (·.name))
  passes : HoldsOr o "passes" (.list (.object (PassFields g.resources))) [] g.passes
  passNames : (g.passes.map (·.name)).Nodup
  passTable : Tabulates g.passNames (g.passes.map (·.name))
  outputs : HoldsOr o "outputs" (.object (OutputsFields g.resources)) .none g.outputs

/-- The documents that stand for graphs, and the graphs that they stand for. -/
def Form.graph : Form Graph := .object GraphFields

end FrameGraph.Document
