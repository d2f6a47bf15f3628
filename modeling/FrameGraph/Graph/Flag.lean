import FrameGraph.Text.Named

namespace FrameGraph

/-- A kind of flags: their number and the bit of each. -/
class Flag (φ : Type) extends Named φ where
  width : Nat
  bit : φ → Fin width

structure FlagSet (φ : Type) [Flag φ] where
  bits : BitVec (Flag.width φ)
  deriving DecidableEq

namespace FlagSet

variable {φ : Type} [Flag φ]

def empty : FlagSet φ := ⟨0#_⟩

def insert (s : FlagSet φ) (f : φ) : FlagSet φ := ⟨s.bits ||| BitVec.twoPow _ (Flag.bit f)⟩

def contains (s : FlagSet φ) (f : φ) : Bool := s.bits.getLsb (Flag.bit f)

def isEmpty (s : FlagSet φ) : Bool := s.bits == 0#_

/-- The set whose bits are the low ones of a number. -/
def ofNat (n : Nat) : FlagSet φ := ⟨BitVec.ofNat _ n⟩

def toNat (s : FlagSet φ) : Nat := s.bits.toNat

/-- The flags held, by increasing bit. -/
def members (s : FlagSet φ) : List φ := (Named.all : List φ).filter s.contains

theorem getLsb_empty (i : Fin (Flag.width φ)) : (empty : FlagSet φ).bits.getLsb i = false := by
  simp [empty, BitVec.getLsb]

/-- Inserting sets the flag's own bit and keeps the others. -/
theorem getLsb_insert (s : FlagSet φ) (f : φ) (i : Fin (Flag.width φ)) :
    (s.insert f).bits.getLsb i = (s.bits.getLsb i || Flag.bit f == i) := by
  simp only [insert, BitVec.getLsb_eq_getElem]
  by_cases h : Flag.bit f = i
  · simp [h]
  · have hne : i.val ≠ (Flag.bit f).val := fun e => h (Fin.ext e.symm)
    simp [h, hne]

end FlagSet

/-- How long a resource lives and who owns it. -/
inductive ResourceFlag where
  | transient
  | persistent
  | external
  | perImage
  | resizable
  deriving DecidableEq, Repr

instance : Flag ResourceFlag where
  all := [.transient, .persistent, .external, .perImage, .resizable]
  name
    | .transient => "TRANSIENT"
    | .persistent => "PERSISTENT"
    | .external => "EXTERNAL"
    | .perImage => "PER_IMAGE"
    | .resizable => "RESIZABLE"
  width := 5
  bit
    | .transient => 0
    | .persistent => 1
    | .external => 2
    | .perImage => 3
    | .resizable => 4

/-- How a pass is scheduled. -/
inductive PassFlag where
  | noCull
  | disabled
  deriving DecidableEq, Repr

instance : Flag PassFlag where
  all := [.noCull, .disabled]
  name
    | .noCull => "NO_CULL"
    | .disabled => "DISABLED"
  width := 2
  bit
    | .noCull => 0
    | .disabled => 1

/-- What an image may be used for. -/
inductive TextureUsage where
  | sampled
  | colorAttachment
  | depthStencilAttachment
  | transferSrc
  | transferDst
  deriving DecidableEq, Repr

instance : Flag TextureUsage where
  all := [.sampled, .colorAttachment, .depthStencilAttachment, .transferSrc, .transferDst]
  name
    | .sampled => "SAMPLED"
    | .colorAttachment => "COLOR_ATTACHMENT"
    | .depthStencilAttachment => "DEPTH_STENCIL_ATTACHMENT"
    | .transferSrc => "TRANSFER_SRC"
    | .transferDst => "TRANSFER_DST"
  width := 5
  bit
    | .sampled => 0
    | .colorAttachment => 1
    | .depthStencilAttachment => 2
    | .transferSrc => 3
    | .transferDst => 4

/-- What a buffer may be used for. -/
inductive BufferUsage where
  | vertexBuffer
  | indexBuffer
  | globalUniformBuffer
  | uniform
  | storage
  | transferSrc
  | transferDst
  | indirect
  deriving DecidableEq, Repr

instance : Flag BufferUsage where
  all := [.vertexBuffer, .indexBuffer, .globalUniformBuffer, .uniform, .storage, .transferSrc,
    .transferDst, .indirect]
  name
    | .vertexBuffer => "VERTEX_BUFFER"
    | .indexBuffer => "INDEX_BUFFER"
    | .globalUniformBuffer => "GLOBAL_UNIFORM_BUFFER"
    | .uniform => "UNIFORM"
    | .storage => "STORAGE"
    | .transferSrc => "TRANSFER_SRC"
    | .transferDst => "TRANSFER_DST"
    | .indirect => "INDIRECT"
  width := 8
  bit
    | .vertexBuffer => 0
    | .indexBuffer => 1
    | .globalUniformBuffer => 2
    | .uniform => 3
    | .storage => 4
    | .transferSrc => 5
    | .transferDst => 6
    | .indirect => 7

end FrameGraph
