import FrameGraph.Engine.Basic

namespace FrameGraph

inductive Call (ε : Type) where
  | image (request : ImageRequest)
  | buffer (request : BufferRequest)
  | pass (request : PassRequest)
  | command (command : Command Nat Nat Nat ε)

/-- What an engine was asked and told. Its handles are numbers from one, apart for images, buffers and
passes; a call that is refused is listed and uses up no number. -/
structure Transcript (ε : Type) where
  calls : List (Call ε) := []
  images : Nat := 0
  buffers : Nat := 0
  passes : Nat := 0
  /-- the number, from zero, of the call that is refused -/
  refused : Option Nat := none

namespace Transcript

variable {ε : Type}

/-- Lists a call and refuses it if it is the one to refuse. -/
def list (c : Call ε) : Action (Transcript ε) Unit := fun t =>
  let n := t.calls.length
  ⟨{ t with calls := t.calls ++ [c] }, [],
    if t.refused = some n then .error ⟨.semantic, "api", s!"call {n} refused"⟩ else .ok ()⟩

def engine : Engine (Transcript ε) Nat Nat Nat ε where
  image q := do
    list (.image q)
    fun t => ⟨{ t with images := t.images + 1 }, [], .ok (t.images + 1)⟩
  buffer q := do
    list (.buffer q)
    fun t => ⟨{ t with buffers := t.buffers + 1 }, [], .ok (t.buffers + 1)⟩
  pass q := do
    list (.pass q)
    fun t => ⟨{ t with passes := t.passes + 1 }, [], .ok (t.passes + 1)⟩
  command c := list (.command c)

end Transcript

end FrameGraph
