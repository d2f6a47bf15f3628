import FrameGraph.Proofs.Plan.Tally

namespace FrameGraph

variable {σ ι β π ε : Type}

namespace Engine

/-- A call to an engine: a request for a handle, or a command on handles. -/
inductive Call (ι β π ε : Type) where
  | image (q : ImageRequest)
  | buffer (q : BufferRequest)
  | pass (q : PassRequest)
  | command (c : Command ι β π ε)

/-- What a call that succeeds is answered. -/
inductive Answer (ι β π : Type) where
  | image (i : ι)
  | buffer (b : β)
  | pass (k : π)
  | done

def answer (engine : Engine σ ι β π ε) : Call ι β π ε → Action σ (Answer ι β π)
  | .image q => .image <$> engine.image q
  | .buffer q => .buffer <$> engine.buffer q
  | .pass q => .pass <$> engine.pass q
  | .command c => (fun _ => .done) <$> engine.command c

/-- The engine with a list of the calls made to it, in order. -/
def listed (engine : Engine σ ι β π ε) : Engine (σ × List (Call ι β π ε)) ι β π ε where
  image q := (engine.image q).tallied (· ++ [.image q])
  buffer q := (engine.buffer q).tallied (· ++ [.buffer q])
  pass q := (engine.pass q).tallied (· ++ [.pass q])
  command c := (engine.command c).tallied (· ++ [.command c])

/-- The name under which a call requests something. -/
def Call.requested? : Call ι β π ε → Option String
  | .image q => some q.name
  | .buffer q => some q.name
  | .pass q => some q.name
  | .command _ => none

end Engine

/-- The name under which a step requests something. -/
def PlanStep.requested? : PlanStep ε → Option String
  | .image q => some q.name
  | .buffer q => some q.name
  | .pass q => some q.name
  | .command _ | .note .. | .stop _ => none

namespace Plan

/-- The names under which a plan requests something, in order. -/
def requested (p : Plan ε) : List String := p.filterMap PlanStep.requested?

/-- The call that a step makes with the handles so far. -/
def Handles.call? (h : Handles ι β π) : PlanStep ε → Option (Engine.Call ι β π ε)
  | .image q => some (.image q)
  | .buffer q => some (.buffer q)
  | .pass q => some (.pass q)
  | .command c => (h.resolve? c).map .command
  | .note .. | .stop _ => none

/-- The handles with the one that a step was answered, if it was answered one. -/
def Handles.keep (h : Handles ι β π) : PlanStep ε → Engine.Answer ι β π → Handles ι β π
  | .image q, .image i => { h with images := (q.name, i) :: h.images }
  | .buffer q, .buffer b => { h with buffers := (q.name, b) :: h.buffers }
  | .pass _, .pass k => { h with pass := some k }
  | _, _ => h

variable (engine : Engine σ ι β π ε) {h : Handles ι β π} {x : PlanStep ε}

/-- A step with a call makes the call and keeps what it is answered. -/
theorem step_of_call {c : Engine.Call ι β π ε} (hc : h.call? x = some c) :
    step engine h x = h.keep x <$> engine.answer c := by
  cases x with
  | command d =>
    obtain ⟨d', hd, rfl⟩ := Option.map_eq_some_iff.1 hc
    simp [step, hd, Engine.answer, Handles.keep]
  | note | stop => exact absurd hc.symm (Option.some_ne_none c)
  | _ =>
    obtain rfl := Option.some.inj hc
    simp [step, Engine.answer, Handles.keep]

/-- A step without a call does the same on all engines, and leaves them as they are. -/
theorem step_of_no_call (hx : h.call? x = none) :
    ∃ log result, ∀ (τ : Type) (engine : Engine τ ι β π ε) (s : τ),
      step engine h x s = ⟨s, log, result⟩ := by
  cases x with
  | command c =>
    have hc : h.resolve? c = none := Option.map_eq_none_iff.1 hx
    exact ⟨[], .ok h, fun τ engine s => by simp [step, hc, Action.pure_apply]⟩
  | note severity message =>
    exact ⟨[{ severity, source := Build.origin.source, message }], .ok h, fun τ engine s => rfl⟩
  | stop e => exact ⟨[Action.errorEntry Build.origin e], .error e, fun τ engine s => rfl⟩
  | _ => exact absurd hx (Option.some_ne_none _)

theorem answer_listed (c : Engine.Call ι β π ε) (s : σ) (calls : List (Engine.Call ι β π ε)) :
    engine.listed.answer c (s, calls) = (engine.answer c s).withTally (calls ++ [c]) := by
  cases c <;> exact Action.map_withTally _ rfl

/-- A step on an engine that lists its calls is the step on the engine, and its call is listed. -/
theorem step_listed (h : Handles ι β π) (x : PlanStep ε) (s : σ)
    (calls : List (Engine.Call ι β π ε)) :
    step engine.listed h x (s, calls) =
      (step engine h x s).withTally (calls ++ (h.call? x).toList) := by
  cases hc : h.call? x with
  | some c =>
    rw [step_of_call engine hc, step_of_call engine.listed hc]
    exact Action.map_withTally _ (answer_listed engine c s calls)
  | none =>
    obtain ⟨log, result, hstep⟩ := step_of_no_call hc
    rw [hstep, hstep, Option.toList_none, List.append_nil]
    rfl

theorem requested?_call (h : Handles ι β π) (x : PlanStep ε) :
    (h.call? x).toList.filterMap Engine.Call.requested? = x.requested?.toList := by
  cases x with
  | command c =>
    show ((h.resolve? c).map Engine.Call.command).toList.filterMap _ = _
    cases h.resolve? c <;> rfl
  | _ => rfl

theorem requested_cons (x : PlanStep ε) (p : Plan ε) :
    requested (x :: p) = x.requested?.toList ++ requested p := by
  unfold requested
  cases hx : x.requested? with
  | none =>
    rw [List.filterMap_cons_none hx]
    rfl
  | some name =>
    rw [List.filterMap_cons_some hx]
    rfl

/-- A run on an engine that lists its calls is the run on the engine. What it requests is named as the
plan says, from the first request on. -/
theorem run_listed (p : Plan ε) (h : Handles ι β π) (s : σ) (calls : List (Engine.Call ι β π ε)) :
    ∃ new, run engine.listed p h (s, calls) = (run engine p h s).withTally (calls ++ new) ∧
      new.filterMap Engine.Call.requested? <+: p.requested := by
  induction p generalizing h s calls with
  | nil => exact ⟨[], by rw [List.append_nil]; rfl, List.nil_prefix⟩
  | cons x p ih =>
    have hlisted := step_listed engine h x s calls
    have hnames := requested?_call h x
    unfold run
    rcases hstep : step engine h x s with ⟨s', log, e | h'⟩
    · rw [hstep] at hlisted
      rw [Action.bind_of_error hstep, Action.bind_of_error hlisted]
      refine ⟨(h.call? x).toList, rfl, ?_⟩
      rw [hnames, requested_cons]
      exact List.prefix_append _ _
    · rw [hstep] at hlisted
      obtain ⟨new, hrun, hprefix⟩ := ih h' s' (calls ++ (h.call? x).toList)
      rw [Action.bind_of_ok hstep, Action.bind_of_ok hlisted, hrun]
      refine ⟨(h.call? x).toList ++ new, ?_, ?_⟩
      · rw [← List.append_assoc]
        rfl
      · rw [List.filterMap_append, hnames, requested_cons]
        exact (List.prefix_append_right_inj _).2 hprefix

end Plan

end FrameGraph
