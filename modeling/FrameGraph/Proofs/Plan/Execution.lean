import FrameGraph.Proofs.Plan.Closed
import FrameGraph.Proofs.Plan.Interpretation

namespace FrameGraph

namespace Plan

variable {σ ι β π ε : Type} {engine : Engine σ ι β π ε}

/-- The plan up to its first stop. -/
def upToStop : Plan ε → Plan ε
  | [] => []
  | .stop e :: _ => [.stop e]
  | s :: p => s :: upToStop p

theorem upToStop_cons {x : PlanStep ε} (hx : x.isStop = false) (p : Plan ε) :
    upToStop (x :: p) = x :: upToStop p := by
  cases x with
  | stop e => exact absurd hx Bool.noConfusion
  | _ => rfl

/-- What a step does to an engine, given the handles so far. A command is made only on handles. -/
inductive Performs (engine : Engine σ ι β π ε) (h : Handles ι β π) :
    PlanStep ε → Action σ (Handles ι β π) → Prop where
  | image (q : ImageRequest) : Performs engine h (.image q)
      ((fun i => { h with images := (q.name, i) :: h.images }) <$> engine.image q)
  | buffer (q : BufferRequest) : Performs engine h (.buffer q)
      ((fun b => { h with buffers := (q.name, b) :: h.buffers }) <$> engine.buffer q)
  | pass (q : PassRequest) : Performs engine h (.pass q)
      ((fun k => { h with pass := some k }) <$> engine.pass q)
  | command {c : Command String String Unit ε} {c' : Command ι β π ε}
      (hc : h.resolve? c = some c') : Performs engine h (.command c)
      ((fun _ => h) <$> engine.command c')
  | note (severity : Severity) (message : String) : Performs engine h (.note severity message)
      ((fun _ => h) <$> Action.note Build.origin severity message)
  | stop (e : Error) : Performs engine h (.stop e) (Build.fail e)

/-- What a plan does to an engine, from the handles so far and a state of the engine to an outcome. -/
inductive Executes (engine : Engine σ ι β π ε) :
    Plan ε → Handles ι β π → σ → Outcome σ (Handles ι β π) → Prop where
  | done (h : Handles ι β π) (s : σ) : Executes engine [] h s ⟨s, [], .ok h⟩
  | next {x : PlanStep ε} {p : Plan ε} {h h' : Handles ι β π} {act : Action σ (Handles ι β π)}
      {s t : σ} {log : List Entry} {o : Outcome σ (Handles ι β π)} (hx : Performs engine h x act)
      (ht : act s = ⟨t, log, .ok h'⟩) (ho : Executes engine p h' t o) :
      Executes engine (x :: p) h s ⟨o.state, log ++ o.log, o.result⟩
  | ended {x : PlanStep ε} {p : Plan ε} {h : Handles ι β π} {act : Action σ (Handles ι β π)}
      {s t : σ} {log : List Entry} {e : Error} (hx : Performs engine h x act)
      (ht : act s = ⟨t, log, .error e⟩) : Executes engine (x :: p) h s ⟨t, log, .error e⟩

/-- The handles of all that the account holds, under the same names. -/
structure Answered (a : Account ε) (h : Handles ι β π) : Prop where
  images : h.images.map Prod.fst = a.imageNames.reverse
  buffers : h.buffers.map Prod.fst = a.bufferNames.reverse
  pass : a.passes ≠ [] → ∃ k, h.pass = some k

variable {a : Account ε} {h : Handles ι β π}

theorem answered_empty : Answered ({} : Account ε) ({} : Handles ι β π) :=
  ⟨rfl, rfl, fun h => absurd rfl h⟩

theorem Answered.exists_image (ha : Answered a h) {name : String} (hn : name ∈ a.imageNames) :
    ∃ i, h.images.lookup name = some i := by
  rw [← List.mem_reverse, ← ha.images, mem_map_fst_iff_lookup] at hn
  exact Option.isSome_iff_exists.1 hn

theorem Answered.exists_buffer (ha : Answered a h) {name : String} (hn : name ∈ a.bufferNames) :
    ∃ b, h.buffers.lookup name = some b := by
  rw [← List.mem_reverse, ← ha.buffers, mem_map_fst_iff_lookup] at hn
  exact Option.isSome_iff_exists.1 hn

/-- A command about what the account holds can be made. -/
theorem Answered.exists_resolve? (ha : Answered a h) {c : Command String String Unit ε}
    (hc : a.Holds c) : ∃ c', h.resolve? c = some c' := by
  cases c with
  | setFlags | setDomain | setExecutor =>
    obtain ⟨k, hk⟩ := ha.pass hc
    exact ⟨_, by simp [Handles.resolve?, hk]; rfl⟩
  | addColor | setDepth | useImage =>
    obtain ⟨k, hk⟩ := ha.pass hc.1
    obtain ⟨i, hi⟩ := ha.exists_image hc.2
    exact ⟨_, by simp [Handles.resolve?, hk, hi]; rfl⟩
  | useBuffer =>
    obtain ⟨k, hk⟩ := ha.pass hc.1
    obtain ⟨b, hb⟩ := ha.exists_buffer hc.2
    exact ⟨_, by simp [Handles.resolve?, hk, hb]; rfl⟩
  | setPresent | exportImage =>
    obtain ⟨i, hi⟩ := ha.exists_image hc
    exact ⟨_, by simp [Handles.resolve?, hi]; rfl⟩
  | exportBuffer =>
    obtain ⟨b, hb⟩ := ha.exists_buffer hc
    exact ⟨_, by simp [Handles.resolve?, hb]; rfl⟩

/-- An account without the command just told has handles if it has them with it. -/
theorem Answered.tell (ha : Answered a h) (c : Command String String Unit ε) :
    Answered (a.tell c) h := by
  have hpass : (a.tell c).passes ≠ [] → a.passes ≠ [] := by
    intro hne hnil
    cases c <;> simp [Account.tell, hnil] at hne
  refine ⟨?_, ?_, fun hne => ha.pass (hpass hne)⟩
  · rw [ha.images]
    cases c <;> rfl
  · rw [ha.buffers]
    cases c <;> rfl

/-- The step may come next: it does not stop, and it is about what the account holds. -/
def Allows (a : Account ε) : PlanStep ε → Prop
  | .command c => a.Holds c
  | .stop _ => False
  | _ => True

theorem closed_cons {x : PlanStep ε} {p : Plan ε} (hp : Closed a (x :: p)) (hx : x.isStop = false) :
    Allows a x ∧ Closed (a.apply x) p := by
  cases x with
  | command c => exact hp
  | stop e => exact absurd hx Bool.noConfusion
  | _ => exact ⟨trivial, hp⟩

/-- A step that may come next is performed. -/
theorem Answered.performs (ha : Answered a h) {x : PlanStep ε} (hx : Allows a x) :
    Performs engine h x (step engine h x) := by
  cases x with
  | image q =>
    have hq : Performs engine h _ _ := .image q
    rwa [map_eq_pure_bind] at hq
  | buffer q =>
    have hq : Performs engine h _ _ := .buffer q
    rwa [map_eq_pure_bind] at hq
  | pass q =>
    have hq : Performs engine h _ _ := .pass q
    rwa [map_eq_pure_bind] at hq
  | command c =>
    obtain ⟨c', hc'⟩ := ha.exists_resolve? hx
    have hstep : step engine h (.command c) = engine.command c' >>= fun _ => pure h := by
      simp [step, hc']
    rw [hstep, ← map_eq_pure_bind]
    exact .command hc'
  | note severity message =>
    have hn : Performs engine h _ _ := .note severity message
    rwa [map_eq_pure_bind] at hn
  | stop e => exact hx.elim

/-- What is performed without a failure answers for its step. -/
theorem Answered.apply (ha : Answered a h) {x : PlanStep ε} {act : Action σ (Handles ι β π)}
    (hx : Performs engine h x act) {s t : σ} {log : List Entry} {h' : Handles ι β π}
    (ht : act s = ⟨t, log, .ok h'⟩) : Answered (a.apply x) h' := by
  cases hx with
  | image q =>
    obtain ⟨i, -, rfl⟩ := Action.map_eq_ok ht
    refine ⟨?_, ha.buffers, ha.pass⟩
    simp [Account.apply, Account.imageNames, ha.images]
  | buffer q =>
    obtain ⟨b, -, rfl⟩ := Action.map_eq_ok ht
    refine ⟨ha.images, ?_, ha.pass⟩
    simp [Account.apply, Account.bufferNames, ha.buffers]
  | pass q =>
    obtain ⟨k, -, rfl⟩ := Action.map_eq_ok ht
    exact ⟨ha.images, ha.buffers, fun _ => ⟨k, rfl⟩⟩
  | command hc =>
    obtain ⟨_, -, rfl⟩ := Action.map_eq_ok ht
    exact ha.tell _
  | note severity message =>
    obtain ⟨_, -, rfl⟩ := Action.map_eq_ok ht
    exact ha
  | stop e =>
    have hresult : (.error e : Except Error (Handles ι β π)) = .ok h' := congrArg Outcome.result ht
    cases hresult

/-- The run of a closed plan executes all that comes before a stop. -/
theorem executes_run {p : Plan ε} (hp : Closed a p) (ha : Answered a h) (s : σ) :
    Executes engine p.upToStop h s (run engine p h s) := by
  induction p generalizing a h s with
  | nil => exact .done h s
  | cons x p ih =>
    cases hx : x.isStop with
    | true =>
      obtain ⟨e, rfl⟩ := PlanStep.exists_of_isStop hx
      rw [run_stop]
      exact .ended (.stop e) rfl
    | false =>
      obtain ⟨hallows, hrest⟩ := closed_cons hp hx
      have hperforms : Performs engine h x _ := ha.performs hallows
      rw [upToStop_cons hx]
      unfold run
      rcases hstep : step engine h x s with ⟨t, log, e | h'⟩
      · rw [Action.bind_of_error hstep]
        exact .ended hperforms hstep
      · rw [Action.bind_of_ok hstep]
        exact .next hperforms hstep (ih hrest (ha.apply hperforms hstep) t)

end Plan

open Plan in
/-- A build executes its plan, up to the first stop of the plan or the first call that is refused, and
counts what the plan declares. -/
theorem Graph.build_executes_plan {σ ι β π ε : Type} (engine : Engine σ ι β π ε) (frame : Frame)
    (executors : String → Option ε) (g : Graph) (s : σ) :
    ∃ o, Executes engine (g.plan frame executors).upToStop {} s o ∧
      g.build engine frame executors s =
        ⟨o.state, o.log, o.result.map fun _ => g.stats frame⟩ := by
  refine ⟨run engine (g.plan frame executors) {} s, ?_, ?_⟩
  · exact executes_run (g.closed_plan frame executors) answered_empty s
  · rw [(g.build_agrees_run engine frame executors).eq_map, Action.map_apply]

end FrameGraph
