import FrameGraph.Graph.Basic

namespace FrameGraph

/-- A size in pixels. -/
structure Size where
  width : UInt32
  height : UInt32
  deriving DecidableEq, Repr

/-- What a graph is built for; it turns the symbolic values of declarations into plain ones. -/
structure Frame where
  window : Size := ⟨1280, 720⟩
  viewport : Size := ⟨1280, 720⟩
  swapchainFormat : Format := .b8g8r8a8Srgb
  swapchainDepthFormat : Format := .d32Sfloat
  shadowDepthFormat : Format := .d32Sfloat
  shadowCascadeCount : UInt32 := 4
  shadowMapSize : UInt32 := 2048
  editorEnabled : Bool := false
  deriving DecidableEq, Repr

/-- The declaration takes part, given whether the editor is on. -/
def Condition.holds (editor : Bool) : Condition → Bool
  | .always => true
  | .editorEnabled => editor
  | .editorDisabled => !editor

/-- The index at iteration `i`. -/
def Index.resolve (i : UInt32) : Index → UInt32
  | .literal value => value
  | .iteration => i

namespace Frame

def count (f : Frame) : CountSource → UInt32
  | .shadowCascadeCount => f.shadowCascadeCount

def side (f : Frame) : SizeSource → UInt32
  | .shadowMapSize => f.shadowMapSize

def extent (f : Frame) : Extent → Size
  | .window => f.window
  | .viewport => f.viewport
  | .fixed width height => ⟨width, height⟩
  | .square source => ⟨f.side source, f.side source⟩

def format (f : Frame) : FormatSource → Format
  | .explicit format => format
  | .swapchain => f.swapchainFormat
  | .swapchainDepth => f.swapchainDepthFormat
  | .shadowDepth => f.shadowDepthFormat

def layers (f : Frame) : Layers → UInt32
  | .fixed count => count
  | .counted source => f.count source

/-- How many instances a declaration has in this frame. -/
def instances (f : Frame) : Repetition → UInt32
  | .once => 1
  | .counted source => f.count source

def admits (f : Frame) (c : Condition) : Bool := c.holds f.editorEnabled

/-- A graph that was built for the previous frame no longer fits this one. -/
def requiresRebuild (f previous : Frame) : Bool := f != previous

end Frame

end FrameGraph
