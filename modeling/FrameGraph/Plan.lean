import FrameGraph.Build

namespace FrameGraph

/-- One step of a plan. -/
inductive PlanStep (ε : Type) where
  | image (q : ImageRequest)
  | buffer (q : BufferRequest)
  | pass (q : PassRequest)
  | command (c : Command String String Unit ε)
  | note (severity : Severity) (message : String)
  | stop (e : Error)

/-- What a build will do, on whatever engine. Images and buffers go by their names, and a pass is the one
requested last; the steps after a stop never run. -/
abbrev Plan (ε : Type) : Type := List (PlanStep ε)

/-- The iterations of a declaration with `n` instances. -/
def iterations (n : UInt32) : List UInt32 := (List.range n.toNat).map .ofNat

/-- The iterations of a declaration in a frame; there are none if the frame does not admit it. -/
def Frame.iterations (f : Frame) (c : Condition) (r : Repetition) : List UInt32 :=
  if f.admits c then FrameGraph.iterations (f.instances r) else []

namespace Graph

/-- The images of the graph in a frame, in order. -/
def imageRequests (g : Graph) (frame : Frame) : List ImageRequest :=
  g.resources.flatMap fun r =>
    match r.body with
    | .image i => (frame.iterations r.condition r.repetition).map (r.imageRequest i frame)
    | .buffer _ => []

/-- The buffers of the graph in a frame, in order. -/
def bufferRequests (g : Graph) (frame : Frame) : List BufferRequest :=
  g.resources.flatMap fun r =>
    match r.body with
    | .image _ => []
    | .buffer b => (frame.iterations r.condition r.repetition).map (r.bufferRequest b)

/-- The passes of the graph in a frame, in order. -/
def passRequests (g : Graph) (frame : Frame) : List PassRequest :=
  g.passes.flatMap fun p => (frame.iterations p.condition p.repetition).map p.request

/-- The counts of a build that succeeds. -/
def stats (g : Graph) (frame : Frame) : Stats where
  images := .ofNat (g.imageRequests frame).length
  buffers := .ofNat (g.bufferRequests frame).length
  passes := .ofNat (g.passRequests frame).length
  skippedResources := .ofNat (g.resources.countP fun r => !frame.admits r.condition)
  skippedPasses := .ofNat (g.passes.countP fun p => !frame.admits p.condition)

end Graph

namespace Plan

open Build Document

variable {σ ι β π ε : Type}

/-- The names that a build declares. -/
structure Scope where
  images : List String
  buffers : List String

/-- A command on a name that must be in scope. -/
def refer (scope : List String) (name : String) (e : Error) (c : Command String String Unit ε) :
    Plan ε :=
  if name ∈ scope then [.command c] else [.stop e]

def ofResourceAt (frame : Frame) (position : Nat) (r : Resource) (n : UInt32) : Plan ε :=
  match r.body with
  | .image i =>
    let q := r.imageRequest i frame n
    if q.description.layers = 0 then [.stop (noLayers position q.name)]
    else [.image q, .note .trace (declaredImage q)]
  | .buffer b =>
    let q := r.bufferRequest b n
    [.buffer q, .note .trace (declaredBuffer q)]

def ofResource (frame : Frame) (position : Nat) (r : Resource) : Plan ε :=
  if frame.admits r.condition then
    (iterations (frame.instances r.repetition)).flatMap (ofResourceAt frame position r)
  else [.note .trace (skipped "resource" r.name r.condition)]

def ofUseAt (scope : Scope) (mode : UseMode) (p : Path) (u : Use) (n : UInt32) : Plan ε :=
  let name := Template.expand u.name n
  match u.access with
  | .image access => refer scope.images name (absentImage p name)
      (.useImage mode () name access (u.bindingAt n))
  | .buffer access => refer scope.buffers name (absentBuffer p name)
      (.useBuffer mode () name access (u.bindingAt n))

/-- A use with a repetition of its own has its own iterations; any other has that of its pass. -/
def ofUse (frame : Frame) (scope : Scope) (mode : UseMode) (p : Path) (n : UInt32) (u : Use) :
    Plan ε :=
  match u.repetition with
  | .once => ofUseAt scope mode p u n
  | .counted source => (iterations (frame.count source)).flatMap (ofUseAt scope mode p u)

def ofUses (frame : Frame) (scope : Scope) (mode : UseMode) (p : Path) (n : UInt32)
    (uses : List Use) : Plan ε :=
  (uses.mapIdx fun i => ofUse frame scope mode (usePath p mode i) n).flatten

def ofAttachments (scope : Scope) (p : Path) (a : Attachments) (n : UInt32) : Plan ε :=
  let color (i : Nat) (a : Attachment Color) : Plan ε :=
    let name := Template.expand a.image n
    refer scope.images name (absentImage (colorPath p i) name)
      (.addColor () name (a.describe .color n))
  let depth (d : DepthAttachment) : Plan ε :=
    let name := Template.expand d.attachment.image n
    refer scope.images name (absentImage (depthPath p) name)
      (.setDepth () name (d.attachment.describe .depthStencil n) d.readOnly)
  (a.colors.mapIdx color).flatten ++ a.depth.toList.flatMap depth

def ofPassAt (frame : Frame) (executors : String → Option ε) (scope : Scope) (position : Nat)
    (d : Pass) (n : UInt32) : Plan ε :=
  let p := passPath position
  let q := d.request n
  match executors d.execute with
  | none => [.stop (noExecutor position d.execute q.name)]
  | some executor =>
    [.pass q, .command (.setFlags () d.flags)] ++
    d.work.domain?.toList.map (fun domain => .command (.setDomain () domain)) ++
    [.command (.setExecutor () executor)] ++
    ofAttachments scope p d.attachments n ++
    ofUses frame scope .read p n d.reads ++
    ofUses frame scope .write p n d.writes ++
    [.note .trace (declaredPass q d.execute)]

def ofPass (frame : Frame) (executors : String → Option ε) (scope : Scope) (position : Nat)
    (d : Pass) : Plan ε :=
  if frame.admits d.condition then
    (iterations (frame.instances d.repetition)).flatMap (ofPassAt frame executors scope position d)
  else [.note .trace (skipped "pass" d.name d.condition)]

def ofOutputs (scope : Scope) (o : Outputs) : Plan ε :=
  let onImage (p : Path) (name : String) (c : Command String String Unit ε) : Plan ε :=
    refer scope.images name (absentImage p name) c
  o.present.toList.flatMap (fun name => onImage presentPath name (.setPresent name)) ++
  (o.exportImages.mapIdx fun i name =>
    onImage (exportImagePath i) name (.exportImage name)).flatten ++
  (o.exportBuffers.mapIdx fun i name =>
    refer scope.buffers name (absentBuffer (exportBufferPath i) name) (.exportBuffer name)).flatten

/-- The handles that an engine has answered with: by name, the latest first, and that of the last
pass. -/
structure Handles (ι β π : Type) where
  images : List (String × ι) := []
  buffers : List (String × β) := []
  pass : Option π := none

/-- The command on handles in place of names, if each name has a handle. -/
def Handles.resolve? (h : Handles ι β π) : Command String String Unit ε → Option (Command ι β π ε)
  | .setFlags _ flags => do return .setFlags (← h.pass) flags
  | .setDomain _ domain => do return .setDomain (← h.pass) domain
  | .setExecutor _ executor => do return .setExecutor (← h.pass) executor
  | .addColor _ image a => do return .addColor (← h.pass) (← h.images.lookup image) a
  | .setDepth _ image a readOnly => do
    return .setDepth (← h.pass) (← h.images.lookup image) a readOnly
  | .useImage mode _ image access binding => do
    return .useImage mode (← h.pass) (← h.images.lookup image) access binding
  | .useBuffer mode _ buffer access binding => do
    return .useBuffer mode (← h.pass) (← h.buffers.lookup buffer) access binding
  | .setPresent image => do return .setPresent (← h.images.lookup image)
  | .exportImage image => do return .exportImage (← h.images.lookup image)
  | .exportBuffer buffer => do return .exportBuffer (← h.buffers.lookup buffer)

/-- One step on an engine. A command on a name without a handle is passed over; the plans of graphs
have none. -/
def step (engine : Engine σ ι β π ε) (h : Handles ι β π) :
    PlanStep ε → Action σ (Handles ι β π)
  | .image q => do return { h with images := (q.name, ← engine.image q) :: h.images }
  | .buffer q => do return { h with buffers := (q.name, ← engine.buffer q) :: h.buffers }
  | .pass q => do return { h with pass := some (← engine.pass q) }
  | .command c => do
    match h.resolve? c with
    | some c => engine.command c
    | none => pure ()
    return h
  | .note severity message => do
    Action.note origin severity message
    return h
  | .stop e => fail e

/-- The steps one after the other. -/
def run (engine : Engine σ ι β π ε) : Plan ε → Handles ι β π → Action σ (Handles ι β π)
  | [], h => pure h
  | s :: p, h => do run engine p (← step engine h s)

theorem run_append (engine : Engine σ ι β π ε) (p q : Plan ε) (h : Handles ι β π) :
    run engine (p ++ q) h = run engine p h >>= run engine q := by
  induction p generalizing h with
  | nil => simp [run]
  | cons s p ih => simp [run, ih]

end Plan

open Plan in
/-- The plan of a build. -/
def Graph.plan {ε : Type} (frame : Frame) (executors : String → Option ε) (g : Graph) : Plan ε :=
  let scope : Scope :=
    ⟨(g.imageRequests frame).map (·.name), (g.bufferRequests frame).map (·.name)⟩
  (g.resources.mapIdx (ofResource frame)).flatten ++
  (g.passes.mapIdx (ofPass frame executors scope)).flatten ++
  ofOutputs scope g.outputs ++
  [.note .debug (Build.finished g.name (g.stats frame))]

end FrameGraph
