import FrameGraph.Document.Path
import FrameGraph.Error
import FrameGraph.Graph.Kind
import FrameGraph.Log.Entry

namespace FrameGraph.Document

/-- Values that are read from a field or an item by their kind alone. -/
inductive Shape where
  | natural
  | number
  | string
  | boolean
  | array
  | object
  deriving DecidableEq, Repr

def Shape.name : Shape → String
  | natural => "a non-negative integer"
  | number => "a number"
  | string => "a string"
  | boolean => "a boolean"
  | array => "an array"
  | object => "an object"

/-- What can be wrong with a document. A cause fixes the kind of the error, the part of the library that
reports it, and the reason. -/
inductive Cause where
  /-- the value is of another kind than expected -/
  | unexpected (expected : Shape) (found : String)
  | outOfRange (value : UInt64)
  | missing
  /-- an image that is not imported lacks its extent or format, given with its article -/
  | missingOfImage (what : String)
  | unknownWord (noun word : String)
  | version (found expected : UInt32)
  | colorShape
  | colorLength (found : Nat)
  | useOfNothing
  | useOfBoth
  | emptyName
  | undeclared (name : String)
  | wrongType (name : String) (found expected : ResourceType)
  | extentTakesNothing (mode : String)
  | sizeSourceOfFixed
  | emptyExtent (width height : UInt32)
  | sidesOfSquare
  | layersTwice
  | noLayers
  | unusedImage
  | emptyBuffer
  | unusedBuffer
  | readOnlyColor
  | emptySlice
  | domainOfOther
  | noAttachment (pass : String)
  /-- an earlier entry of the list has the same name -/
  | duplicate (what list name : String) (first : Nat)
  /-- a name stands for a position that its list does not have -/
  | outOfBounds (position length : Nat)
  deriving DecidableEq, Repr

namespace Cause

def kind : Cause → ErrorKind
  | unexpected .. | outOfRange _ | missing | missingOfImage _ | unknownWord .. | version ..
  | colorShape | colorLength _ | useOfNothing => .format
  | useOfBoth | emptyName | undeclared _ | wrongType .. | extentTakesNothing _ | sizeSourceOfFixed
  | emptyExtent .. | sidesOfSquare | layersTwice | noLayers | unusedImage | emptyBuffer
  | unusedBuffer | readOnlyColor | emptySlice | domainOfOther | noAttachment _
  | duplicate .. | outOfBounds .. => .semantic

/-- Reports of values that are not of their shape, or not there at all. -/
def reader : Origin := { source := "galaxy3d::JsonReader", file := "FrameGraph/Document/Field.lean" }

/-- Reports of values that make no graph. -/
def loader : Origin := { source := "galaxy3d::GraphLoader", file := "FrameGraph/Document/Graph.lean" }

def origin : Cause → Origin
  | unexpected .. | outOfRange _ | missing => reader
  | _ => loader

def reason : Cause → String
  | unexpected expected found => s!"expected {expected.name}, found {found}"
  | outOfRange value => s!"integer {value.toNat} is out of range"
  | missing => "missing required field"
  | missingOfImage what => s!"missing required field (non-import images need {what})"
  | unknownWord noun word => s!"unknown {noun} '{word}'"
  | version found expected =>
    s!"unsupported render graph version {found.toNat} (expected {expected.toNat})"
  | colorShape => "color clear value must be [r, g, b, a]"
  | colorLength found => s!"color clear value must have 4 components, found {found}"
  | useOfNothing => "a resource use needs an 'image' or 'buffer' field"
  | useOfBoth => "a resource use names either 'image' or 'buffer', not both"
  | emptyName => "name must not be empty"
  | undeclared name =>
    s!"resource '{name}' is not declared (resources must be declared before use)"
  | wrongType name found expected =>
    s!"resource '{name}' is {Named.name found}, expected {Named.name expected}"
  | extentTakesNothing mode => s!"extent mode '{mode}' does not take width/height/size_source"
  | sizeSourceOfFixed => "size_source is only valid for 'square' extents"
  | emptyExtent width height =>
    s!"fixed extent must be non-zero, got {width.toNat}x{height.toNat}"
  | sidesOfSquare => "square extent takes size_source, not width/height"
  | layersTwice => "'layers' and 'layers_source' are mutually exclusive"
  | noLayers => "layer count must be at least 1"
  | unusedImage => "non-import images need at least one usage flag"
  | emptyBuffer => "buffer size must be greater than 0"
  | unusedBuffer => "buffers need at least one usage flag"
  | readOnlyColor => "'read_only' is only valid on depth attachments"
  | emptySlice => "layer_count must be at least 1"
  | domainOfOther => "'domain' is only valid on graphics passes"
  | noAttachment pass => s!"graphics pass '{pass}' needs at least one attachment"
  | duplicate what list name first =>
    s!"duplicate {what} name '{name}' (first declared at {list}[{first}])"
  | outOfBounds position length =>
    s!"index out of bounds: the len is {length} but the index is {position}"

end Cause

structure Fault where
  path : Path
  cause : Cause
  deriving DecidableEq, Repr

def Fault.error (f : Fault) : Error := ⟨f.cause.kind, f.path.render, f.cause.reason⟩

end FrameGraph.Document
