import FrameGraph.Plan
import Mathlib.Data.List.Basic

namespace FrameGraph

/-- The images that the resource declares in the iterations given. -/
def Resource.imagesAt (r : Resource) (frame : Frame) (ns : List UInt32) : List ImageRequest :=
  match r.body with
  | .image i => ns.map (r.imageRequest i frame)
  | .buffer _ => []

/-- The buffers that the resource declares in the iterations given. -/
def Resource.buffersAt (r : Resource) (ns : List UInt32) : List BufferRequest :=
  match r.body with
  | .image _ => []
  | .buffer b => ns.map (r.bufferRequest b)

theorem Resource.imagesAt_append (r : Resource) (frame : Frame) (ms ns : List UInt32) :
    r.imagesAt frame (ms ++ ns) = r.imagesAt frame ms ++ r.imagesAt frame ns := by
  unfold imagesAt
  cases r.body <;> simp

theorem Resource.buffersAt_append (r : Resource) (ms ns : List UInt32) :
    r.buffersAt (ms ++ ns) = r.buffersAt ms ++ r.buffersAt ns := by
  unfold buffersAt
  cases r.body <;> simp

theorem Resource.imagesAt_eq_flatMap (r : Resource) (frame : Frame) (ns : List UInt32) :
    r.imagesAt frame ns = ns.flatMap fun n => r.imagesAt frame [n] := by
  unfold imagesAt
  cases r.body <;> simp [List.map_eq_flatMap]

theorem Resource.buffersAt_eq_flatMap (r : Resource) (ns : List UInt32) :
    r.buffersAt ns = ns.flatMap fun n => r.buffersAt [n] := by
  unfold buffersAt
  cases r.body <;> simp [List.map_eq_flatMap]

theorem Resource.imagesAt_nil (r : Resource) (frame : Frame) : r.imagesAt frame [] = [] := by
  unfold imagesAt
  cases r.body <;> rfl

theorem Resource.buffersAt_nil (r : Resource) : r.buffersAt [] = [] := by
  unfold buffersAt
  cases r.body <;> rfl

theorem Graph.imageRequests_eq (g : Graph) (frame : Frame) :
    g.imageRequests frame =
      g.resources.flatMap fun r => r.imagesAt frame (frame.iterations r.condition r.repetition) :=
  rfl

theorem Graph.bufferRequests_eq (g : Graph) (frame : Frame) :
    g.bufferRequests frame =
      g.resources.flatMap fun r => r.buffersAt (frame.iterations r.condition r.repetition) :=
  rfl

theorem Graph.length_passRequests_eq (g : Graph) (frame : Frame) : (g.passRequests frame).length =
    (g.passes.flatMap fun d => frame.iterations d.condition d.repetition).length := by
  simp [Graph.passRequests, List.length_flatMap]

theorem Build.fail_bind {σ α β : Type} (e : Error) (f : α → Action σ β) :
    (fail e >>= f) = fail e := by
  funext s
  exact Action.bind_of_error rfl

namespace Plan

open Build Document

variable {σ ι β π ε α κ : Type} (engine : Engine σ ι β π ε) (h : Handles ι β π)

/-- A table has a name if looking it up finds something. -/
theorem mem_map_fst_iff_lookup (table : List (String × κ)) (name : String) :
    name ∈ table.map Prod.fst ↔ (table.lookup name).isSome = true := by
  rw [List.lookup_isSome_iff, List.mem_map]
  constructor
  · intro hmem
    obtain ⟨a, ha, rfl⟩ := hmem
    exact ⟨a, ha, beq_self_eq_true _⟩
  · intro hlookup
    obtain ⟨a, ha, hn⟩ := hlookup
    exact ⟨a, ha, (eq_of_beq hn).symm⟩

theorem run_image (q : ImageRequest) (p : Plan ε) :
    run engine (.image q :: p) h =
      engine.image q >>= fun i => run engine p { h with images := (q.name, i) :: h.images } := by
  simp [run, step]

theorem run_buffer (q : BufferRequest) (p : Plan ε) :
    run engine (.buffer q :: p) h =
      engine.buffer q >>= fun b => run engine p { h with buffers := (q.name, b) :: h.buffers } := by
  simp [run, step]

theorem run_pass (q : PassRequest) (p : Plan ε) :
    run engine (.pass q :: p) h =
      engine.pass q >>= fun k => run engine p { h with pass := some k } := by
  simp [run, step]

theorem run_command {c : Command String String Unit ε} {c' : Command ι β π ε}
    (hc : h.resolve? c = some c') (p : Plan ε) :
    run engine (.command c :: p) h = engine.command c' >>= fun _ => run engine p h := by
  simp [run, step, hc]

theorem run_note (severity : Severity) (message : String) (p : Plan ε) :
    run engine (.note severity message :: p) h =
      Action.note origin severity message >>= fun _ => run engine p h := by
  simp [run, step]

/-- Nothing after a stop is run. -/
theorem run_stop (e : Error) (p : Plan ε) : run engine (.stop e :: p) h = fail e :=
  fail_bind e _

theorem run_iterations (f : UInt32 → Plan ε) (n : UInt32) :
    run engine ((iterations n).flatMap f) h =
      Action.iterate (fun i h => run engine (f (.ofNat i)) h) n.toNat 0 h := by
  suffices key : ∀ k i h, run engine (((List.range' i k).map UInt32.ofNat).flatMap f) h =
      Action.iterate (fun i h => run engine (f (.ofNat i)) h) k i h by
    rw [iterations, List.range_eq_range']
    exact key n.toNat 0 h
  intro k
  induction k with
  | zero => exact fun i h => rfl
  | succ k ih =>
    intro i h
    rw [List.range'_succ, List.map_cons, List.flatMap_cons, run_append, Action.iterate]
    exact congrArg (run engine (f (.ofNat i)) h >>= ·) (funext (ih (i + 1)))

theorem run_flatten_mapIdx (f : Nat → α → Plan ε) (as : List α) :
    run engine (as.mapIdx f).flatten h =
      Action.forEach (fun i a h => run engine (f i a) h) 0 as h := by
  suffices key : ∀ i h, run engine (as.mapIdx fun j => f (i + j)).flatten h =
      Action.forEach (fun i a h => run engine (f i a) h) i as h by
    simpa using key 0 h
  induction as with
  | nil => exact fun i h => rfl
  | cons a as ih =>
    intro i h
    have hrest : (as.mapIdx fun j => f (i + (j + 1))) = as.mapIdx fun j => f (i + 1 + j) := by
      congr 1
      funext j
      rw [Nat.add_right_comm, Nat.add_assoc]
    rw [List.mapIdx_cons, List.flatten_cons, run_append, Nat.add_zero, hrest, Action.forEach]
    exact congrArg (run engine (f i a) h >>= ·) (funext (ih (i + 1)))

end Plan

end FrameGraph
