import FrameGraph.Proofs.Log.Report
import FrameGraph.Proofs.Plan.Content
import FrameGraph.Proofs.Plan.Interpretation

namespace FrameGraph

open FrameGraph.Action

variable {σ τ ι β π ε α γ : Type}

/-- The step does not log an error by way of a note. -/
def PlanStep.isCalm : PlanStep ε → Bool
  | .note severity _ => severity ≠ .error
  | _ => true

namespace Plan

variable {frame : Frame} {scope : Scope}

theorem isCalm_refer {names : List String} {name : String} {e : Error}
    {c : Command String String Unit ε} : ∀ x ∈ refer names name e c, x.isCalm = true := by
  unfold refer
  by_cases h : name ∈ names <;> simp [h, PlanStep.isCalm]

theorem isCalm_ofResource (position : Nat) (r : Resource) :
    ∀ x ∈ (ofResource frame position r : Plan ε), x.isCalm = true := by
  unfold ofResource
  by_cases ha : frame.admits r.condition = true
  · rw [if_pos ha]
    refine forall_mem_iterations fun n => ?_
    unfold ofResourceAt
    cases r.body with
    | buffer b => simp [PlanStep.isCalm]
    | image i =>
      dsimp only
      split <;> simp [PlanStep.isCalm]
  · rw [if_neg ha]
    simp [PlanStep.isCalm]

theorem isCalm_ofUses (mode : UseMode) (p : Document.Path) (n : UInt32) (uses : List Use) :
    ∀ x ∈ (ofUses frame scope mode p n uses : Plan ε), x.isCalm = true := by
  refine forall_mem_mapIdx (fun i u => ?_) uses
  have hat (m : UInt32) :
      ∀ x ∈ (ofUseAt scope mode (Build.usePath p mode i) u m : Plan ε), x.isCalm = true := by
    unfold ofUseAt
    cases u.access with
    | image access => exact isCalm_refer
    | buffer access => exact isCalm_refer
  unfold ofUse
  cases u.repetition with
  | once => exact hat n
  | counted source => exact forall_mem_iterations hat

theorem isCalm_ofAttachments (p : Document.Path) (a : Attachments) (n : UInt32) :
    ∀ x ∈ (ofAttachments scope p a n : Plan ε), x.isCalm = true := by
  refine List.forall_mem_append.2 ⟨forall_mem_mapIdx (fun i c => isCalm_refer) _, ?_⟩
  intro x hx
  obtain ⟨d, -, hd⟩ := List.mem_flatMap.1 hx
  exact isCalm_refer x hd

theorem isCalm_ofPass (executors : String → Option ε) (position : Nat) (d : Pass) :
    ∀ x ∈ ofPass frame executors scope position d, x.isCalm = true := by
  unfold ofPass
  by_cases ha : frame.admits d.condition = true
  · rw [if_pos ha]
    refine forall_mem_iterations fun n => ?_
    unfold ofPassAt
    cases executors d.execute with
    | none => simp [PlanStep.isCalm]
    | some executor =>
      dsimp only
      have hhead : ∀ x ∈ ([.pass (d.request n), .command (.setFlags () d.flags)] : Plan ε) ++
          d.work.domain?.toList.map (fun domain => .command (.setDomain () domain)) ++
          [.command (.setExecutor () executor)], x.isCalm = true := by
        cases d.work.domain? <;> simp [PlanStep.isCalm]
      rw [List.forall_mem_append, List.forall_mem_append, List.forall_mem_append,
        List.forall_mem_append]
      refine ⟨⟨⟨⟨hhead, isCalm_ofAttachments _ _ n⟩, isCalm_ofUses _ _ n _⟩, isCalm_ofUses _ _ n _⟩,
        ?_⟩
      simp [PlanStep.isCalm]
  · rw [if_neg ha]
    simp [PlanStep.isCalm]

theorem isCalm_ofOutputs (o : Outputs) :
    ∀ x ∈ (ofOutputs scope o : Plan ε), x.isCalm = true := by
  unfold ofOutputs
  dsimp only
  rw [List.forall_mem_append, List.forall_mem_append]
  refine ⟨⟨?_, forall_mem_mapIdx (fun i name => isCalm_refer) _⟩,
    forall_mem_mapIdx (fun i name => isCalm_refer) _⟩
  intro x hx
  obtain ⟨name, -, hname⟩ := List.mem_flatMap.1 hx
  exact isCalm_refer x hname

end Plan

open Plan in
theorem Graph.isCalm_plan (g : Graph) (frame : Frame) (executors : String → Option ε) :
    ∀ x ∈ g.plan frame executors, x.isCalm = true := by
  unfold Graph.plan
  dsimp only
  rw [List.forall_mem_append, List.forall_mem_append, List.forall_mem_append]
  refine ⟨⟨⟨forall_mem_mapIdx isCalm_ofResource _, forall_mem_mapIdx (isCalm_ofPass executors) _⟩,
    isCalm_ofOutputs _⟩, ?_⟩
  simp [PlanStep.isCalm]

structure Engine.Reports (engine : Engine σ ι β π ε) : Prop where
  image : ∀ q, (engine.image q).Reports
  buffer : ∀ q, (engine.buffer q).Reports
  pass : ∀ q, (engine.pass q).Reports
  command : ∀ c, (engine.command c).Reports

theorem Recording.reports_engine :
    (engine : Engine (Recording ε) ImageKey BufferKey PassKey ε).Reports :=
  ⟨reports_declareImage, reports_declareBuffer, reports_declarePass, reports_perform⟩

namespace Plan

theorem reports_step {engine : Engine σ ι β π ε} (he : engine.Reports) (h : Handles ι β π)
    {x : PlanStep ε} (hx : x.isCalm = true) : (step engine h x).Reports := by
  cases x with
  | image q => exact (he.image q).bind fun i => reports_pure _
  | buffer q => exact (he.buffer q).bind fun b => reports_pure _
  | pass q => exact (he.pass q).bind fun p => reports_pure _
  | command c =>
    unfold step
    dsimp only
    cases h.resolve? c with
    | none => exact reports_pure h
    | some c => exact (he.command c).bind fun _ => reports_pure h
  | note severity message =>
    have hseverity : severity ≠ .error := by simpa [PlanStep.isCalm] using hx
    exact (reports_note _ hseverity message).bind fun _ => reports_pure h
  | stop e => exact reports_fail _ e

theorem reports_run {engine : Engine σ ι β π ε} (he : engine.Reports) {p : Plan ε}
    (hp : ∀ x ∈ p, x.isCalm = true) (h : Handles ι β π) : (run engine p h).Reports := by
  induction p generalizing h with
  | nil => exact reports_pure h
  | cons x p ih =>
    obtain ⟨hx, hrest⟩ := List.forall_mem_cons.1 hp
    exact (reports_step he h hx).bind fun h' => ih hrest h'

end Plan

theorem Graph.reports_build {engine : Engine σ ι β π ε} (he : engine.Reports) (g : Graph)
    (frame : Frame) (executors : String → Option ε) : (g.build engine frame executors).Reports := by
  rw [(g.build_agrees_run engine frame executors).eq_map]
  exact (Plan.reports_run he (g.isCalm_plan frame executors) {}).map _

/-- The state of an engine, what the engine has said, and the error of the first call that it refused. -/
structure Heard (σ : Type) where
  state : σ
  said : List Entry := []
  refused : Option Error := none

/-- The call without its entries: they are kept apart, as is its error, which it still returns. -/
def Action.hushed (x : Action σ α) : Action (Heard σ) α := fun w =>
  let o := x w.state
  ⟨⟨o.state, w.said ++ o.log, w.refused.or o.error?⟩, [], o.result⟩

def Engine.hushed (engine : Engine σ ι β π ε) : Engine (Heard σ) ι β π ε where
  image q := (engine.image q).hushed
  buffer q := (engine.buffer q).hushed
  pass q := (engine.pass q).hushed
  command c := (engine.command c).hushed

/-- The error of a refused call is passed on without an error entry; any other error is reported. -/
def Attributed (own : List Entry) (error refused : Option Error) : Prop :=
  match refused with
  | none => Reported own error
  | some e => error = some e ∧ Quiet own

theorem Attributed.cons {x : Entry} {own : List Entry} {error refused : Option Error}
    (hx : x.severity ≠ .error) (h : Attributed own error refused) :
    Attributed (x :: own) error refused := by
  cases refused with
  | none => exact Reported.after_quiet (quiet_cons.2 ⟨hx, quiet_nil⟩) h
  | some e => exact ⟨h.1, quiet_cons.2 ⟨hx, h.2⟩⟩

/-- An outcome on an engine, and the one on the engine hushed: both do the same, the log is made of one's
own entries and of those of the engine, and the error is attributed. -/
structure Forwards (o : Outcome σ α) (o' : Outcome (Heard σ) α) : Prop where
  state : o.state = o'.state.state
  result : o.result = o'.result
  log : o.log.Perm (o'.log ++ o'.state.said)
  attributed : Attributed o'.log o'.error? o'.state.refused

theorem Action.hushed_pure (a : α) : (pure a : Action σ α).hushed = pure a := by
  funext w
  simp [hushed, pure_apply, Outcome.error?]

theorem Action.hushed_map (f : α → γ) (x : Action σ α) : (f <$> x).hushed = f <$> x.hushed := by
  funext w
  rw [map_apply]
  unfold hushed
  simp only [map_apply]
  unfold Outcome.error?
  cases (x w.state).result <;> rfl

/-- A step is a call or the build's own. -/
def PlanStep.isCall : PlanStep ε → Bool
  | .note .. | .stop _ => false
  | _ => true

namespace Plan

theorem step_hushed_of_isCall (engine : Engine σ ι β π ε) (h : Handles ι β π) {x : PlanStep ε}
    (hx : x.isCall = true) : step engine.hushed h x = (step engine h x).hushed := by
  have hcall {α : Type} (x : Action σ α) (f : α → Handles ι β π) :
      (do return f (← x.hushed)) = (do return f (← x) : Action σ (Handles ι β π)).hushed := by
    rw [← map_eq_pure_bind, ← map_eq_pure_bind, hushed_map]
  cases x with
  | image q => exact hcall (engine.image q) _
  | buffer q => exact hcall (engine.buffer q) _
  | pass q => exact hcall (engine.pass q) _
  | command c =>
    unfold step
    dsimp only
    cases h.resolve? c with
    | none => exact (hushed_pure h).symm
    | some c => exact hcall (engine.command c) fun _ => h
  | note severity message => exact absurd hx nofun
  | stop e => exact absurd hx nofun

/-- What a run on a hushed engine adds to what the engine has said before. -/
theorem run_hushed (engine : Engine σ ι β π ε) {p : Plan ε} (hp : ∀ x ∈ p, x.isCalm = true)
    (h : Handles ι β π) (s : σ) (said : List Entry) :
    let o := run engine p h s
    let o' := run engine.hushed p h { state := s, said }
    o.state = o'.state.state ∧ o.result = o'.result ∧
      (said ++ o.log).Perm (o'.log ++ o'.state.said) ∧
      Attributed o'.log o'.error? o'.state.refused := by
  induction p generalizing h s said with
  | nil => exact ⟨rfl, rfl, .of_eq (List.append_nil said), quiet_nil⟩
  | cons x p ih =>
    obtain ⟨hx, hrest⟩ := List.forall_mem_cons.1 hp
    unfold run
    dsimp only
    cases hc : x.isCall with
    | true =>
      rcases hstep : step engine h x s with ⟨t, log, e | h'⟩
      · have hstep' : step engine.hushed h x { state := s, said } =
            ⟨⟨t, said ++ log, some e⟩, [], .error e⟩ := by
          rw [step_hushed_of_isCall engine h hc]
          simp [hushed, hstep, Outcome.error?]
        rw [bind_of_error hstep, bind_of_error hstep']
        exact ⟨rfl, rfl, .refl _, rfl, quiet_nil⟩
      · have hstep' : step engine.hushed h x { state := s, said } =
            ⟨⟨t, said ++ log, none⟩, [], .ok h'⟩ := by
          rw [step_hushed_of_isCall engine h hc]
          simp [hushed, hstep, Outcome.error?]
        rw [bind_of_ok hstep, bind_of_ok hstep']
        obtain ⟨hstate, hresult, hlog, hattributed⟩ := ih hrest h' t (said ++ log)
        exact ⟨hstate, hresult, List.append_assoc said log _ ▸ hlog, hattributed⟩
    | false =>
      cases x with
      | note severity message =>
        have hseverity : severity ≠ .error := by simpa [PlanStep.isCalm] using hx
        obtain ⟨hstate, hresult, hlog, hattributed⟩ := ih hrest h s said
        exact ⟨hstate, hresult, List.perm_middle.trans (hlog.cons _), hattributed.cons hseverity⟩
      | stop e =>
        have hreport := reports_fail (α := Unit) Build.origin e s
        exact ⟨rfl, rfl, List.perm_append_comm, hreport⟩
      | _ => simp [PlanStep.isCall] at hc

end Plan

theorem Outcome.error?_map (s : τ) (log : List Entry) (r : Except Error α) (f : α → γ) :
    (⟨s, log, r.map f⟩ : Outcome τ γ).error? = (⟨s, log, r⟩ : Outcome τ α).error? := by
  cases r <;> rfl

theorem Graph.forwards_build (engine : Engine σ ι β π ε) (frame : Frame)
    (executors : String → Option ε) (g : Graph) (s : σ) :
    Forwards (g.build engine frame executors s)
      (g.build engine.hushed frame executors { state := s }) := by
  rw [(g.build_agrees_run engine frame executors).eq_map,
    (g.build_agrees_run engine.hushed frame executors).eq_map, map_apply, map_apply]
  obtain ⟨hstate, hresult, hlog, hattributed⟩ :=
    Plan.run_hushed engine (g.isCalm_plan frame executors) {} s []
  refine ⟨hstate, congrArg (Except.map fun _ => g.stats frame) hresult, hlog, ?_⟩
  rw [Outcome.error?_map]
  exact hattributed

/-- The outcome on the second part of the state. -/
def Outcome.second (o : Outcome (τ × σ) α) : Outcome σ α := ⟨o.state.2, o.log, o.result⟩

theorem Catalog.forwards_build (engine : Engine σ ι β π ε) (name : String) (frame : Frame)
    (executors : String → Option ε) (c : Catalog) (s : σ) :
    Forwards (build engine name frame executors (c, s)).second
      (build engine.hushed name frame executors (c, { state := s })).second := by
  cases hc : c.shelved? name with
  | none =>
    have hreport := reports_fail (α := Stats) origin (unknown name) s
    rw [build_of_absent engine frame executors s hc, build_of_absent engine.hushed frame executors _ hc]
    exact ⟨rfl, rfl, .refl _, hreport⟩
  | some x =>
    rw [build_of_stored engine frame executors s hc, build_of_stored engine.hushed frame executors _ hc]
    exact x.graph.forwards_build engine frame executors s

theorem Catalog.reports_build {engine : Engine σ ι β π ε} (he : engine.Reports) (name : String)
    (frame : Frame) (executors : String → Option ε) : (build engine name frame executors).Reports := by
  intro cs
  obtain ⟨c, s⟩ := cs
  cases hc : c.shelved? name with
  | none =>
    rw [build_of_absent engine frame executors s hc]
    exact reports_fail (α := Stats) origin (unknown name) (c, s)
  | some x =>
    rw [build_of_stored engine frame executors s hc]
    exact x.graph.reports_build he frame executors s

/-- Every error is reported once, by the operation that finds it: loading from a text or a file, builds on
a recording and its calls, registering an executor, and the operations of a catalog, of which a reload
warns afterwards. Builds on any engine pass the errors of the engine on. -/
theorem errors_logged_once :
    (∀ (σ : Type) (parse : Json.Parser) (text : String),
      (Graph.loadText parse text : Action σ Graph).Reports) ∧
    (∀ (σ : Type) (parse : Json.Parser) (folder : Folder) (path : String),
      (Graph.loadFile parse folder path : Action σ Graph).Reports) ∧
    (∀ (ε : Type) (g : Graph) (frame : Frame) (executors : String → Option ε),
      (g.build Recording.engine frame executors).Reports) ∧
    (∀ (ε : Type) (c : Recording.Call ε), c.perform.Reports) ∧
    (∀ (ε : Type) (name : String) (executor : ε), (Executors.register name executor).Reports) ∧
    (∀ (parse : Json.Parser) (folder : Folder) (name path : String),
      (Catalog.load parse folder name path).Reports) ∧
    (∀ (name : String) (g : Graph), (Catalog.insert name g).Reports) ∧
    (∀ (parse : Json.Parser) (folder : Folder) (name path : String) (c : Catalog),
      ∃ log, Reported log (Catalog.reload parse folder name path c).error? ∧
        (Catalog.reload parse folder name path c).log =
          log ++ c.warnings name (Catalog.reload parse folder name path c).error?) ∧
    (∀ (ε : Type) (name : String) (frame : Frame) (executors : String → Option ε),
      (Catalog.build Recording.engine name frame executors).Reports) ∧
    ∀ (σ ι β π ε : Type) (engine : Engine σ ι β π ε) (frame : Frame)
      (executors : String → Option ε) (s : σ),
      (∀ g : Graph, Forwards (g.build engine frame executors s)
        (g.build engine.hushed frame executors { state := s })) ∧
      ∀ (name : String) (c : Catalog),
        Forwards (Catalog.build engine name frame executors (c, s)).second
          (Catalog.build engine.hushed name frame executors (c, { state := s })).second := by
  refine ⟨fun σ => Graph.reports_loadText, fun σ => Graph.reports_loadFile, ?_,
    fun ε => Recording.Call.reports_perform, fun ε => Executors.reports_register,
    Catalog.reports_load, Catalog.reports_insert, Catalog.exists_reported_reload, ?_, ?_⟩
  · intro ε g frame executors
    exact g.reports_build Recording.reports_engine frame executors
  · intro ε name frame executors
    exact Catalog.reports_build Recording.reports_engine name frame executors
  · intro σ ι β π ε engine frame executors s
    exact ⟨fun g => g.forwards_build engine frame executors s,
      fun name c => Catalog.forwards_build engine name frame executors c s⟩

end FrameGraph
