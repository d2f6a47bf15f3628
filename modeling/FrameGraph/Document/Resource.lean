import FrameGraph.Document.Word

namespace FrameGraph.Document

open Text (sameFolded trimmed)

variable {m : Type → Type} [Monad m] [Reporting m]

namespace Reader

/-- A name, which has at least one character. -/
def name : Reader m String := fun p j => do
  let s ← text p j
  if s.isEmpty then blame ⟨p, .emptyName⟩
  return s

def repetition : Reader m Repetition := fun p j => do
  let o ← object p j
  .counted <$> o.required "count_source" (spelled Vocabulary.repeatCounts)

/-- A window or viewport takes no size, a fixed extent two sides and a square the source of one. -/
def extent : Reader m Extent := fun p j => do
  let o ← object p j
  let mode := trimmed (← o.required "mode" text)
  let sides := o.has "width" || o.has "height"
  if sameFolded mode "window" || sameFolded mode "viewport" then
    if sides || o.has "size_source" then blame ⟨p, .extentTakesNothing mode⟩
    return if sameFolded mode "window" then .window else .viewport
  else if sameFolded mode "fixed" then
    if o.has "size_source" then blame ⟨o.pathOf "size_source", .sizeSourceOfFixed⟩
    let width ← o.required "width" word
    let height ← o.required "height" word
    if width = 0 || height = 0 then blame ⟨p, .emptyExtent width height⟩
    return .fixed width height
  else if sameFolded mode "square" then
    if sides then blame ⟨p, .sidesOfSquare⟩
    return .square (← o.required "size_source" (spelled Vocabulary.sizeSources))
  else blame ⟨o.pathOf "mode", .unknownWord "extent mode" mode⟩

end Reader

namespace Fields

def condition (o : Fields) : m Condition := do
  return (← o.optional "condition" (Reader.spelled Vocabulary.conditions)).getD .always

def repetition (o : Fields) : m Repetition := do
  return (← o.optional "repeat" Reader.repetition).getD .once

/-- A set of flags, empty when the field is absent. -/
def flags {φ : Type} [Flag φ] (o : Fields) (key noun : String) : m (FlagSet φ) := do
  return (← o.optional key (Reader.flags noun)).getD .empty

/-- A literal count of layers or its source, but not both; one layer when neither is there. -/
def layers (o : Fields) : m Layers := do
  let count ← o.optional "layers" Reader.word
  let source ← o.optional "layers_source" Reader.text
  match count, source with
  | some _, some _ => blame ⟨o.pathOf "layers_source", .layersTwice⟩
  | some n, none =>
    if n = 0 then blame ⟨o.pathOf "layers", .noLayers⟩
    return .fixed n
  | none, some s => .counted <$> lookUp Vocabulary.layerCounts (o.pathOf "layers_source") s
  | none, none => return .fixed 1

/-- The value of a field that only an imported image may leave out. -/
def orOfImport {α : Type} (o : Fields) (key what : String) (read : Reader m α) (isImport : Bool)
    (value : α) : m α := do
  match ← o.optional key read with
  | some a => return a
  | none =>
    if isImport then return value
    blame ⟨o.pathOf key, .missingOfImage what⟩

def image (o : Fields) : m Image := do
  let importName ← o.optional "import" Reader.text
  let isImport := importName.isSome
  let extent ← o.orOfImport "extent" "an extent" Reader.extent isImport .window
  let layers ← o.layers
  let format ← o.orOfImport "format" "a format" (Reader.spelled Vocabulary.formats) isImport
    .swapchain
  let usage ← o.flags "usage" "texture usage"
  if usage.isEmpty && !isImport then blame ⟨o.pathOf "usage", .unusedImage⟩
  return { importName, extent, layers, format, usage }

def buffer (o : Fields) : m Buffer := do
  let size ← o.required "size" Reader.long
  if size = 0 then blame ⟨o.pathOf "size", .emptyBuffer⟩
  let usage ← o.flags "usage" "buffer usage"
  if usage.isEmpty then blame ⟨o.pathOf "usage", .unusedBuffer⟩
  return { size, usage }

def body (o : Fields) : ResourceType → m ResourceBody
  | .image => .image <$> o.image
  | .buffer => .buffer <$> o.buffer

end Fields

def Reader.resource : Reader m Resource := fun p j => do
  let o ← object p j
  let name ← o.required "name" name
  let type ← o.required "type" (spelled Vocabulary.resourceTypes)
  let condition ← o.condition
  let repetition ← o.repetition
  let flags ← o.flags "flags" "resource flag"
  let body ← o.body type
  return { name, condition, repetition, flags, body }

end FrameGraph.Document
