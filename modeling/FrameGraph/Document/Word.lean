import FrameGraph.Document.Field
import FrameGraph.Graph.Basic
import FrameGraph.Template
import FrameGraph.Text.Vocabulary

namespace FrameGraph.Document

open Text (Vocabulary capitals sameFolded trimmed)

namespace Vocabulary

def resourceTypes : Vocabulary ResourceType where
  noun := "resource type"
  words := [("image", .image), ("buffer", .buffer)]

def passTypes : Vocabulary PassType where
  noun := "pass type"
  words := [("graphics", .graphics), ("compute", .compute), ("transfer", .transfer)]

def domains : Vocabulary Domain where
  noun := "pass domain"
  words := [("WORLD", .world), ("UI", .ui), ("SHADOW", .shadow), ("POST", .post),
    ("SKYBOX", .skybox)]

def conditions : Vocabulary Condition where
  noun := "condition"
  words := [("none", .always), ("editor_enabled", .editorEnabled),
    ("!editor_enabled", .editorDisabled)]

def repeatCounts : Vocabulary CountSource where
  noun := "repeat count source"
  words := [("shadow_cascade_count", .shadowCascadeCount)]

def sizeSources : Vocabulary SizeSource where
  noun := "size source"
  words := [("shadow_map_size", .shadowMapSize)]

def layerCounts : Vocabulary CountSource where
  noun := "layers source"
  words := [("shadow_cascade_count", .shadowCascadeCount)]

def imageAccesses : Vocabulary ImageAccess where
  noun := "image access"
  words := [("SAMPLED", .sampled), ("STORAGE_READ", .storageRead),
    ("STORAGE_WRITE", .storageWrite), ("COLOR_ATTACHMENT", .colorAttachment),
    ("DEPTH_ATTACHMENT", .depthAttachment), ("DEPTH_READ_ONLY", .depthReadOnly),
    ("TRANSFER_SRC", .transferSrc), ("TRANSFER_DST", .transferDst), ("PRESENT", .present)]

def bufferAccesses : Vocabulary BufferAccess where
  noun := "buffer access"
  words := [("VERTEX", .vertex), ("INDEX", .index), ("UNIFORM", .uniform),
    ("STORAGE_READ", .storageRead), ("STORAGE_WRITE", .storageWrite),
    ("TRANSFER_SRC", .transferSrc), ("TRANSFER_DST", .transferDst)]

/-- Formats are spelled as they are named. -/
def formats : Vocabulary FormatSource where
  noun := "format"
  words := (Named.all.map fun f => (Named.name f, .explicit f)) ++
    [("SWAPCHAIN", .swapchain), ("SWAPCHAIN_DEPTH", .swapchainDepth),
     ("SHADOW_DEPTH", .shadowDepth)]

def loadOps : Vocabulary LoadOp where
  noun := "load op"
  words := [("LOAD", .load), ("CLEAR", .clear), ("DONT_CARE", .dontCare)]

def storeOps : Vocabulary StoreOp where
  noun := "store op"
  words := [("STORE", .store), ("DONT_CARE", .dontCare)]

end Vocabulary

variable {m : Type → Type} [Monad m] [Reporting m]

/-- What a word of the document at a path stands for. -/
def lookUp {α : Type} (v : Vocabulary α) (p : Path) (s : String) : m α :=
  match v.find? s with
  | some a => return a
  | none => blame ⟨p, .unknownWord v.noun s⟩

/-- The flag that a word of the document at a path names; flags are named in capitals. -/
def flagNamed {φ : Type} [Flag φ] (noun : String) (p : Path) (s : String) : m φ :=
  match Named.ofName? (capitals (trimmed s)) with
  | some f => return f
  | none => blame ⟨p, .unknownWord noun s⟩

namespace Reader

variable {α φ : Type}

/-- A string that is a word of a vocabulary. -/
def spelled (v : Vocabulary α) : Reader m α := fun p j => do
  lookUp v p (← text p j)

/-- An array of words, each of which adds its flag. That all items are strings is checked first. -/
def flags [Flag φ] (noun : String) : Reader m (FlagSet φ) := fun p j => do
  let words ← list (located text) p j
  words.foldlM (fun s (p, w) => do return s.insert (← flagNamed noun p w)) .empty

/-- A literal index, or a string that is the token of templates or the letter `i`. -/
def index : Reader m Index
  | p, .text s =>
    if (trimmed s).toList = Template.token || sameFolded (trimmed s) "i" then return .iteration
    else blame ⟨p, .unknownWord "index token" (trimmed s)⟩
  | p, j => .literal <$> word p j

end Reader

end FrameGraph.Document
