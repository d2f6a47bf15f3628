import FrameGraph.Build.Report

namespace FrameGraph

namespace Build

open Document (Path)

/-- The handles of the resources declared so far by expanded name, the latest first. -/
structure Known (ι β : Type) where
  images : List (String × ι) := []
  buffers : List (String × β) := []

variable {σ ι β π ε α : Type}

def trace (message : String) : Action σ Unit := Action.note origin .trace message

def fail (e : Error) : Action σ α := Action.fail origin e

/-- What was found, or a failure. -/
def found (a : Option α) (e : Error) : Action σ α :=
  match a with
  | some a => pure a
  | none => fail e

namespace Known

def image (k : Known ι β) (p : Path) (name : String) : Action σ ι :=
  found (k.images.lookup name) (absentImage p name)

def buffer (k : Known ι β) (p : Path) (name : String) : Action σ β :=
  found (k.buffers.lookup name) (absentBuffer p name)

def addImage (k : Known ι β) (name : String) (i : ι) : Known ι β :=
  { k with images := (name, i) :: k.images }

def addBuffer (k : Known ι β) (name : String) (b : β) : Known ι β :=
  { k with buffers := (name, b) :: k.buffers }

end Known

/-- One instance of the resource at a position. -/
def instantiate (engine : Engine σ ι β π ε) (frame : Frame) (position : Nat) (r : Resource)
    (iteration : UInt32) : Known ι β × Stats → Action σ (Known ι β × Stats) := fun (known, stats) =>
  match r.body with
  | .image i => do
    let q := r.imageRequest i frame iteration
    if q.description.layers = 0 then fail (noLayers position q.name)
    let image ← engine.image q
    trace (declaredImage q)
    return (known.addImage q.name image, { stats with images := stats.images.next })
  | .buffer b => do
    let q := r.bufferRequest b iteration
    let buffer ← engine.buffer q
    trace (declaredBuffer q)
    return (known.addBuffer q.name buffer, { stats with buffers := stats.buffers.next })

/-- All instances of the resource at a position. -/
def declareResource (engine : Engine σ ι β π ε) (frame : Frame) (position : Nat) (r : Resource)
    (known : Known ι β × Stats) : Action σ (Known ι β × Stats) :=
  if frame.admits r.condition then
    Action.iterate (fun i => instantiate engine frame position r (.ofNat i))
      (frame.instances r.repetition).toNat 0 known
  else do
    trace (skipped "resource" r.name r.condition)
    return (known.1, { known.2 with skippedResources := known.2.skippedResources.next })

/-- One instance of a use. -/
def useOnce (engine : Engine σ ι β π ε) (known : Known ι β) (pass : π) (mode : UseMode) (p : Path)
    (u : Use) (iteration : UInt32) : Action σ Unit := do
  let name := Template.expand u.name iteration
  match u.access with
  | .image access =>
    let image ← known.image p name
    engine.command (.useImage mode pass image access (u.bindingAt iteration))
  | .buffer access =>
    let buffer ← known.buffer p name
    engine.command (.useBuffer mode pass buffer access (u.bindingAt iteration))

/-- All instances of a use: one at the iteration of its pass, or one at each iteration of its own. -/
def useAll (engine : Engine σ ι β π ε) (frame : Frame) (known : Known ι β) (pass : π)
    (mode : UseMode) (p : Path) (u : Use) (iteration : UInt32) : Action σ Unit :=
  match u.repetition with
  | .once => useOnce engine known pass mode p u iteration
  | .counted source =>
    Action.iterate (fun i _ => useOnce engine known pass mode p u (.ofNat i))
      (frame.count source).toNat 0 ()

/-- The reads or the writes of a pass. -/
def useList (engine : Engine σ ι β π ε) (frame : Frame) (known : Known ι β) (pass : π)
    (mode : UseMode) (p : Path) (uses : List Use) (iteration : UInt32) : Action σ Unit :=
  Action.forEach (fun i u _ => useAll engine frame known pass mode (usePath p mode i) u iteration)
    0 uses ()

def attach (engine : Engine σ ι β π ε) (known : Known ι β) (pass : π) (p : Path) (a : Attachments)
    (iteration : UInt32) : Action σ Unit := do
  Action.forEach (fun i a _ => do
    let image ← known.image (colorPath p i) (Template.expand a.image iteration)
    engine.command (.addColor pass image (a.describe .color iteration))) 0 a.colors ()
  match a.depth with
  | some ⟨a, readOnly⟩ => do
    let image ← known.image (depthPath p) (Template.expand a.image iteration)
    engine.command (.setDepth pass image (a.describe .depthStencil iteration) readOnly)
  | none => pure ()

/-- One instance of the pass at a position. The executor is looked up before the pass is added. -/
def instantiatePass (engine : Engine σ ι β π ε) (frame : Frame) (executors : String → Option ε)
    (known : Known ι β) (position : Nat) (d : Pass) (iteration : UInt32) (stats : Stats) :
    Action σ Stats := do
  let p := passPath position
  let q := d.request iteration
  let executor ← found (executors d.execute) (noExecutor position d.execute q.name)
  let pass ← engine.pass q
  engine.command (.setFlags pass d.flags)
  match d.work.domain? with
  | some domain => engine.command (.setDomain pass domain)
  | none => pure ()
  engine.command (.setExecutor pass executor)
  attach engine known pass p d.attachments iteration
  useList engine frame known pass .read p d.reads iteration
  useList engine frame known pass .write p d.writes iteration
  trace (declaredPass q d.execute)
  return { stats with passes := stats.passes.next }

/-- All instances of the pass at a position. -/
def declarePass (engine : Engine σ ι β π ε) (frame : Frame) (executors : String → Option ε)
    (known : Known ι β) (position : Nat) (d : Pass) (stats : Stats) : Action σ Stats :=
  if frame.admits d.condition then
    Action.iterate (fun i => instantiatePass engine frame executors known position d (.ofNat i))
      (frame.instances d.repetition).toNat 0 stats
  else do
    trace (skipped "pass" d.name d.condition)
    return { stats with skippedPasses := stats.skippedPasses.next }

/-- Outputs name resources as they are, without an iteration. -/
def declareOutputs (engine : Engine σ ι β π ε) (known : Known ι β) (o : Outputs) :
    Action σ Unit := do
  match o.present with
  | some name => do
    let image ← known.image presentPath name
    engine.command (.setPresent image)
  | none => pure ()
  Action.forEach (fun i name _ => do
    let image ← known.image (exportImagePath i) name
    engine.command (.exportImage image)) 0 o.exportImages ()
  Action.forEach (fun i name _ => do
    let buffer ← known.buffer (exportBufferPath i) name
    engine.command (.exportBuffer buffer)) 0 o.exportBuffers ()

end Build

/-- Declares the graph to the engine as the frame has it, with executors found by name. -/
def Graph.build {σ ι β π ε : Type} (engine : Engine σ ι β π ε) (frame : Frame)
    (executors : String → Option ε) (g : Graph) : Action σ Stats := do
  let (known, stats) ←
    Action.forEach (Build.declareResource engine frame) 0 g.resources ({}, {})
  let stats ← Action.forEach (Build.declarePass engine frame executors known) 0 g.passes stats
  Build.declareOutputs engine known g.outputs
  Action.note Build.origin .debug (Build.finished g.name stats)
  return stats

end FrameGraph
