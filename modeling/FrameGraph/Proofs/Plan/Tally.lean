import FrameGraph.Proofs.Plan.Content
import FrameGraph.Proofs.Plan.Interpretation
import Mathlib.Algebra.GroupWithZero.Nat

namespace FrameGraph

open FrameGraph.Action

variable {σ ι β π ε α τ : Type}

/-- The requests made to an engine; images are created or imported. -/
structure Tally where
  created : Nat := 0
  imported : Nat := 0
  buffers : Nat := 0
  passes : Nat := 0

namespace Tally

def addImage (t : Tally) (q : ImageRequest) : Tally :=
  match q.source with
  | none => { t with created := t.created + 1 }
  | some _ => { t with imported := t.imported + 1 }

def addBuffer (t : Tally) : Tally := { t with buffers := t.buffers + 1 }

def addPass (t : Tally) : Tally := { t with passes := t.passes + 1 }

/-- The tally with what a step of a plan requests. -/
def add (t : Tally) : PlanStep ε → Tally
  | .image q => t.addImage q
  | .buffer _ => t.addBuffer
  | .pass _ => t.addPass
  | .command _ | .note .. | .stop _ => t

/-- The tally of an account. -/
structure Counts (t : Tally) (a : Account ε) : Prop where
  images : t.created + t.imported = a.images.length
  buffers : t.buffers = a.buffers.length
  passes : t.passes = a.passes.length

theorem counts_empty : ({} : Tally).Counts ({} : Account ε) := ⟨rfl, rfl, rfl⟩

theorem Counts.add {t : Tally} {a : Account ε} (h : t.Counts a) (x : PlanStep ε) :
    (t.add x).Counts (a.apply x) := by
  obtain ⟨himages, hbuffers, hpasses⟩ := h
  cases x with
  | image q =>
    have hadd : (t.addImage q).created + (t.addImage q).imported = t.created + t.imported + 1 := by
      unfold addImage
      cases q.source with
      | none => exact Nat.add_right_comm ..
      | some i => rfl
    have hbuffers' : (t.addImage q).buffers = t.buffers := by unfold addImage; cases q.source <;> rfl
    have hpasses' : (t.addImage q).passes = t.passes := by unfold addImage; cases q.source <;> rfl
    refine ⟨?_, hbuffers'.trans hbuffers, hpasses'.trans hpasses⟩
    have hlength : (a.apply (.image q)).images.length = a.images.length + 1 := List.length_append
    exact (hadd.trans (congrArg (· + 1) himages)).trans hlength.symm
  | buffer q =>
    have hlength : (a.apply (.buffer q)).buffers.length = a.buffers.length + 1 := List.length_append
    exact ⟨himages, (congrArg (· + 1) hbuffers).trans hlength.symm, hpasses⟩
  | pass q =>
    have hlength : (a.apply (.pass q)).passes.length = a.passes.length + 1 := List.length_append
    exact ⟨himages, hbuffers, (congrArg (· + 1) hpasses).trans hlength.symm⟩
  | command c =>
    have hkept : (a.tell c).passes.length = a.passes.length := by
      cases c <;> simp [Account.tell]
    refine ⟨?_, ?_, hpasses.trans hkept.symm⟩
    · cases c <;> exact himages
    · cases c <;> exact hbuffers
  | note | stop => exact ⟨himages, hbuffers, hpasses⟩

theorem Counts.foldl {t : Tally} {a : Account ε} (h : t.Counts a) (p : Plan ε) :
    (p.foldl Tally.add t).Counts (a.after p) := by
  induction p generalizing t a with
  | nil => exact h
  | cons x p ih => exact ih (h.add x)

end Tally

/-- The action on a state with a tally, which counts it whether it fails or not. -/
def Action.tallied (count : τ → τ) (x : Action σ α) : Action (σ × τ) α := fun w =>
  onFirst x (w.1, count w.2)

/-- The engine with a tally of the requests made to it. -/
def Engine.tallied (engine : Engine σ ι β π ε) : Engine (σ × Tally) ι β π ε where
  image q := (engine.image q).tallied (·.addImage q)
  buffer q := (engine.buffer q).tallied (·.addBuffer)
  pass q := (engine.pass q).tallied (·.addPass)
  command c := onFirst (engine.command c)

/-- The outcome with a tally beside its state. -/
def Outcome.withTally (o : Outcome σ α) (t : τ) : Outcome (σ × τ) α := ⟨(o.state, t), o.log, o.result⟩

theorem Action.map_withTally {γ : Type} (f : α → γ) {x : Action σ α} {y : Action (σ × τ) α} {s : σ}
    {w : σ × τ} {t : τ} (h : y w = (x s).withTally t) : (f <$> y) w = ((f <$> x) s).withTally t := by
  rw [map_apply, map_apply, h]
  rfl

namespace Plan

variable (engine : Engine σ ι β π ε)

theorem step_tallied (h : Handles ι β π) (x : PlanStep ε) (s : σ) (t : Tally) :
    step engine.tallied h x (s, t) = (step engine h x s).withTally (t.add x) := by
  unfold step
  cases x with
  | image q =>
    dsimp only
    rw [← map_eq_pure_bind, ← map_eq_pure_bind]
    exact map_withTally _ rfl
  | buffer q =>
    dsimp only
    rw [← map_eq_pure_bind, ← map_eq_pure_bind]
    exact map_withTally _ rfl
  | pass q =>
    dsimp only
    rw [← map_eq_pure_bind, ← map_eq_pure_bind]
    exact map_withTally _ rfl
  | command c =>
    dsimp only
    cases h.resolve? c with
    | none => rfl
    | some c' =>
      dsimp only
      rw [← map_eq_pure_bind, ← map_eq_pure_bind]
      exact map_withTally _ rfl
  | note severity message => rfl
  | stop e => rfl

/-- The run on an engine with a tally is the run on the engine. A run that succeeds passes no stop and
tallies every step. -/
theorem run_tallied (p : Plan ε) (h : Handles ι β π) (s : σ) (t : Tally) :
    ∃ t', run engine.tallied p h (s, t) = (run engine p h s).withTally t' ∧
      ∀ h', (run engine p h s).result = .ok h' → Stopless p ∧ t' = p.foldl Tally.add t := by
  induction p generalizing h s t with
  | nil => exact ⟨t, rfl, fun _ _ => ⟨stopless_nil, rfl⟩⟩
  | cons x p ih =>
    have htallied := step_tallied engine h x s t
    unfold run
    rcases hstep : step engine h x s with ⟨s', log, e | h'⟩
    · rw [hstep] at htallied
      rw [bind_of_error hstep, bind_of_error htallied]
      refine ⟨t.add x, rfl, fun h' hok => ?_⟩
      cases hok
    · rw [hstep] at htallied
      obtain ⟨t', hrun, hok⟩ := ih h' s' (t.add x)
      have hx : x.isStop = false := by
        cases x with
        | stop e =>
          have hresult : (.error e : Except Error (Handles ι β π)) = .ok h' :=
            congrArg Outcome.result hstep
          cases hresult
        | _ => rfl
      rw [bind_of_ok hstep, bind_of_ok htallied, hrun]
      refine ⟨t', rfl, fun h'' hh => ?_⟩
      obtain ⟨hs, ht⟩ := hok h'' hh
      exact ⟨stopless_cons.2 ⟨hx, hs⟩, ht⟩

end Plan

namespace Graph

open Plan

variable {g : Graph} {frame : Frame} {executors : String → Option ε}

/-- A build that succeeds makes the requests that it counts. -/
theorem build_tallied (engine : Engine σ ι β π ε) (g : Graph) (frame : Frame)
    (executors : String → Option ε) (s : σ) :
    ∃ t, g.build engine.tallied frame executors (s, {}) =
        (g.build engine frame executors s).withTally t ∧
      ∀ stats, (g.build engine frame executors s).result = .ok stats →
        stats = g.stats frame ∧ t.created + t.imported = (g.imageRequests frame).length ∧
          t.buffers = (g.bufferRequests frame).length ∧
          t.passes = (g.passRequests frame).length := by
  obtain ⟨t, hrun, hok⟩ := run_tallied engine (g.plan frame executors) {} s {}
  rw [(g.build_agrees_run engine frame executors).eq_map,
    (g.build_agrees_run engine.tallied frame executors).eq_map]
  refine ⟨t, map_withTally _ hrun, fun stats hstats => ?_⟩
  rw [map_apply] at hstats
  cases hresult : (run engine (g.plan frame executors) {} s).result with
  | error e =>
    rw [hresult] at hstats
    exact absurd hstats nofun
  | ok h =>
    rw [hresult] at hstats
    obtain rfl : g.stats frame = stats := Except.ok.inj hstats
    obtain ⟨hs, rfl⟩ := hok h hresult
    have hcounts := (Tally.counts_empty (ε := ε)).foldl (g.plan frame executors)
    rw [g.after_plan frame executors hs] at hcounts
    have hpasses : (g.passAccounts frame executors).length = (g.passRequests frame).length := by
      simp [passAccounts, passRequests, List.length_flatMap]
    exact ⟨rfl, hcounts.images, hcounts.buffers, hcounts.passes.trans hpasses⟩

end Graph

theorem length_iterations (frame : Frame) (c : Condition) (r : Repetition) :
    (frame.iterations c r).length = if frame.admits c then (frame.instances r).toNat else 0 := by
  unfold Frame.iterations
  by_cases ha : frame.admits c = true <;> simp [ha, iterations]

theorem Resource.length_imagesAt (r : Resource) (frame : Frame) (ns : List UInt32) :
    (r.imagesAt frame ns).length = if r.type = .image then ns.length else 0 := by
  unfold imagesAt type ResourceBody.type
  cases r.body <;> simp

theorem Resource.length_buffersAt (r : Resource) (ns : List UInt32) :
    (r.buffersAt ns).length = if r.type = .buffer then ns.length else 0 := by
  unfold buffersAt type ResourceBody.type
  cases r.body <;> simp

/-- A sum over the members that a test picks. -/
theorem sum_map_ite_eq_filter (test : α → Bool) (f : α → Nat) (as : List α) :
    (as.map fun a => if test a then f a else 0).sum = ((as.filter test).map f).sum := by
  induction as with
  | nil => rfl
  | cons a as ih =>
    rw [List.map_cons, List.sum_cons, ih]
    by_cases ha : test a = true <;> simp [ha]

namespace Graph

/-- The repetitions of the resources of a type that the frame admits, added up. -/
def resourceInstances (g : Graph) (frame : Frame) (type : ResourceType) : Nat :=
  ((g.resources.filter fun r => frame.admits r.condition && r.type == type).map fun r =>
    (frame.instances r.repetition).toNat).sum

/-- The repetitions of the passes that the frame admits, added up. -/
def passInstances (g : Graph) (frame : Frame) : Nat :=
  ((g.passes.filter fun d => frame.admits d.condition).map fun d =>
    (frame.instances d.repetition).toNat).sum

variable (g : Graph) (frame : Frame)

/-- Instances of the resources of one type, summed over all resources. -/
theorem sum_eq_resourceInstances {type : ResourceType} {f : Resource → Nat}
    (hf : ∀ r, f r =
      if r.type = type then (frame.iterations r.condition r.repetition).length else 0) :
    (g.resources.map f).sum = g.resourceInstances frame type := by
  have hone (r : Resource) : f r =
      if frame.admits r.condition && r.type == type then (frame.instances r.repetition).toNat
      else 0 := by
    rw [hf, length_iterations]
    by_cases ha : frame.admits r.condition = true <;> by_cases ht : r.type = type <;> simp [ha, ht]
  unfold resourceInstances
  rw [← sum_map_ite_eq_filter]
  exact congrArg (fun f => (g.resources.map f).sum) (funext hone)

theorem length_imageRequests :
    (g.imageRequests frame).length = g.resourceInstances frame .image := by
  rw [imageRequests_eq, List.length_flatMap]
  exact g.sum_eq_resourceInstances frame fun r => r.length_imagesAt frame _

theorem length_bufferRequests :
    (g.bufferRequests frame).length = g.resourceInstances frame .buffer := by
  rw [bufferRequests_eq, List.length_flatMap]
  exact g.sum_eq_resourceInstances frame fun r => r.length_buffersAt _

theorem length_passRequests : (g.passRequests frame).length = g.passInstances frame := by
  have hone (d : Pass) : ((frame.iterations d.condition d.repetition).map d.request).length =
      if frame.admits d.condition then (frame.instances d.repetition).toNat else 0 := by
    rw [List.length_map, length_iterations]
  unfold passInstances passRequests
  rw [List.length_flatMap, ← sum_map_ite_eq_filter]
  exact congrArg (fun f => (g.passes.map f).sum) (funext hone)

end Graph

end FrameGraph
