import FrameGraph.Executors
import FrameGraph.Proofs.Catalog.Operations
import FrameGraph.Proofs.Recording.History

namespace FrameGraph

variable {σ τ α β ε : Type}

/-- No entry of the log is an error. -/
def Quiet (log : List Entry) : Prop := ∀ x ∈ log, x.severity ≠ .error

theorem quiet_nil : Quiet [] := List.forall_mem_nil _

theorem quiet_cons {x : Entry} {log : List Entry} :
    Quiet (x :: log) ↔ x.severity ≠ .error ∧ Quiet log :=
  List.forall_mem_cons

theorem quiet_append {log log' : List Entry} : Quiet (log ++ log') ↔ Quiet log ∧ Quiet log' :=
  List.forall_mem_append

/-- The entry is that of the error: it says where it comes from, and its message is the error's line. -/
structure Entry.Reports (x : Entry) (e : Error) : Prop where
  severity : x.severity = .error
  located : x.isLocated = true
  message : x.message = e.display

/-- Without an error no entry is one; an error is reported by one entry, after which there is no other. -/
def Reported (log : List Entry) : Option Error → Prop
  | none => Quiet log
  | some e => ∃ before x, log = before ++ [x] ∧ Quiet before ∧ x.Reports e

theorem Reported.after_quiet {log log' : List Entry} {error : Option Error} (h : Quiet log)
    (h' : Reported log' error) : Reported (log ++ log') error := by
  cases error with
  | none => exact quiet_append.2 ⟨h, h'⟩
  | some e =>
    obtain ⟨before, x, rfl, hbefore, hx⟩ := h'
    exact ⟨log ++ before, x, (List.append_assoc ..).symm, quiet_append.2 ⟨h, hbefore⟩, hx⟩

/-- The error of an outcome, if it has one. -/
def Outcome.error? (o : Outcome σ α) : Option Error :=
  match o.result with
  | .ok _ => none
  | .error e => some e

namespace Action

def Reports (x : Action σ α) : Prop := ∀ s, Reported (x s).log (x s).error?

theorem reports_of_silent {x : Action σ α} (h : ∀ s, ∃ t a, x s = ⟨t, [], .ok a⟩) : x.Reports := by
  intro s
  obtain ⟨t, a, hx⟩ := h s
  rw [hx]
  exact quiet_nil

theorem reports_pure (a : α) : (pure a : Action σ α).Reports :=
  reports_of_silent fun s => ⟨s, a, rfl⟩

theorem reports_get : (get : Action σ σ).Reports := reports_of_silent fun s => ⟨s, s, rfl⟩

theorem reports_set (s : σ) : (set s).Reports := reports_of_silent fun _ => ⟨s, (), rfl⟩

theorem reports_note (o : Origin) {severity : Severity} (h : severity ≠ .error) (message : String) :
    (note o severity message : Action σ Unit).Reports :=
  fun _ => quiet_cons.2 ⟨h, quiet_nil⟩

theorem reports_errorEntry (o : Origin) (e : Error) : (errorEntry o e).Reports e := ⟨rfl, rfl, rfl⟩

theorem reports_fail (o : Origin) (e : Error) : (fail o e : Action σ α).Reports :=
  fun _ => ⟨[], _, rfl, quiet_nil, reports_errorEntry o e⟩

theorem Reports.bind {x : Action σ α} {f : α → Action σ β} (hx : x.Reports)
    (hf : ∀ a, (f a).Reports) : (x >>= f).Reports := by
  intro s
  have hlog := hx s
  rcases h : x s with ⟨t, log, e | a⟩
  · rw [bind_of_error h]
    rwa [h] at hlog
  · rw [bind_of_ok h]
    rw [h] at hlog
    exact (hf a t).after_quiet hlog

theorem Reports.map {x : Action σ α} (h : x.Reports) (f : α → β) : (f <$> x).Reports := by
  rw [map_eq_pure_bind]
  exact h.bind fun a => reports_pure (f a)

/-- What follows a check runs only if the check finds nothing. -/
theorem Reports.check {c : Prop} [Decidable c] {o : Origin} {e : Error} {f : β → Action σ α}
    {x : Action σ α} (h : x.Reports) : (if c then fail o e >>= f else x).Reports := by
  by_cases hc : c
  · rw [if_pos hc]
    intro s
    rw [bind_of_error (fail_apply o e s)]
    exact reports_fail (α := α) o e s
  · rwa [if_neg hc]

end Action

open FrameGraph.Action

/-- A result as an action reports its fault. -/
theorem Document.reports_logged (x : Except Document.Fault α) :
    (Document.logged x : Action σ α).Reports := by
  cases x with
  | error f => exact reports_fail _ _
  | ok a => exact reports_pure a

theorem Graph.reports_load (document : Json) : (load document : Action σ Graph).Reports := by
  unfold load
  rw [← Document.logged_ofDocument]
  refine (Document.reports_logged _).bind fun g => ?_
  exact (reports_note _ (by decide) _).bind fun _ => reports_pure g

theorem Graph.reports_loadText (parse : Json.Parser) (text : String) :
    (loadText parse text : Action σ Graph).Reports := by
  unfold loadText
  cases parse text with
  | error message => exact reports_fail _ _
  | ok document => exact reports_load document

theorem Graph.reports_loadFile (parse : Json.Parser) (folder : Folder) (path : String) :
    (loadFile parse folder path : Action σ Graph).Reports := by
  unfold loadFile
  cases folder.read path with
  | error f => exact reports_fail _ _
  | ok content =>
    dsimp only
    cases Text.decodeUtf8 content with
    | error f => exact reports_fail _ _
    | ok text =>
      refine (reports_loadText parse text).bind fun g => ?_
      exact (reports_note _ (by decide) _).bind fun _ => reports_pure g

namespace Recording

theorem reports_declareImage (q : ImageRequest) :
    (declareImage q : Action (Recording ε) ImageKey).Reports :=
  reports_get.bind fun _ => ((reports_set _).bind fun _ => reports_pure _).check

theorem reports_declareBuffer (q : BufferRequest) :
    (declareBuffer q : Action (Recording ε) BufferKey).Reports :=
  reports_get.bind fun _ => ((reports_set _).bind fun _ => reports_pure _).check

theorem reports_declarePass (q : PassRequest) :
    (declarePass q : Action (Recording ε) PassKey).Reports :=
  reports_get.bind fun _ => ((reports_set _).bind fun _ => reports_pure _).check

theorem reports_updatePass (k : PassKey) (change : PassRecord ε → PassRecord ε) :
    (updatePass k change).Reports :=
  reports_get.bind fun _ => (reports_set _).check

theorem reports_perform (c : Command ImageKey BufferKey PassKey ε) : (perform c).Reports := by
  cases c with
  | setPresent image => exact reports_get.bind fun _ => (reports_set _).check
  | exportImage image => exact reports_of_silent fun r => ⟨_, (), rfl⟩
  | exportBuffer buffer => exact reports_of_silent fun r => ⟨_, (), rfl⟩
  | _ => exact reports_updatePass _ _

theorem Call.reports_perform (c : Call ε) : c.perform.Reports := by
  cases c with
  | image q => exact (reports_declareImage q).map _
  | buffer q => exact (reports_declareBuffer q).map _
  | pass q => exact (reports_declarePass q).map _
  | command c => exact (Recording.reports_perform c).map _

end Recording

theorem Executors.reports_register (name : String) (executor : ε) :
    (register name executor).Reports :=
  reports_get.bind fun _ => (reports_set _).check

namespace Catalog

theorem reports_insert (name : String) (g : Graph) : (insert name g).Reports :=
  reports_get.bind fun _ => ((reports_set _).bind fun _ => reports_pure g).check

theorem reports_load (parse : Json.Parser) (folder : Folder) (name path : String) :
    (load parse folder name path).Reports :=
  reports_get.bind fun _ => ((Graph.reports_loadFile parse folder path).bind (reports_insert name)).check

/-- What a reload logs after its error: a warning, if it was the file that had a fault. -/
def warnings (c : Catalog) (name : String) : Option Error → List Entry
  | none => []
  | some _ => if (c.shelved? name).isSome then [reloadFailed name] else []

theorem exists_reported_reload (parse : Json.Parser) (folder : Folder) (name path : String)
    (c : Catalog) :
    ∃ log, Reported log (reload parse folder name path c).error? ∧
      (reload parse folder name path c).log =
        log ++ c.warnings name (reload parse folder name path c).error? := by
  cases hs : c.shelved? name with
  | none =>
    have hnone : c.warnings name (some (unknown name)) = [] := by simp [warnings, hs]
    rw [reload_of_absent hs]
    refine ⟨_, ⟨[], _, rfl, quiet_nil, reports_errorEntry origin (unknown name)⟩, ?_⟩
    exact (congrArg ([errorEntry origin (unknown name)] ++ ·) hnone).symm
  | some shelved =>
    have hstored : (c.shelved? name).isSome = true := by rw [hs]; rfl
    have hfile := Graph.reports_loadFile parse folder path c
    rw [reload_of_stored hstored]
    rcases hload : Graph.loadFile parse folder path c with ⟨t, log, e | g⟩
    · have hwarn : c.warnings name (some e) = [reloadFailed name] := by simp [warnings, hs]
      rw [hload] at hfile
      exact ⟨log, hfile, congrArg (log ++ ·) hwarn.symm⟩
    · have hinfo : (reloaded name).severity ≠ .error := nofun
      rw [hload] at hfile
      refine ⟨log ++ [reloaded name], ?_, (List.append_nil _).symm⟩
      exact quiet_append.2 ⟨hfile, quiet_cons.2 ⟨hinfo, quiet_nil⟩⟩

end Catalog

end FrameGraph
