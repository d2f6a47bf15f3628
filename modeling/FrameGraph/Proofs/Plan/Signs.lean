import FrameGraph.Engine.Transcript
import FrameGraph.Proofs.Graph.Equality
import FrameGraph.Proofs.Plan.Calls
import FrameGraph.Proofs.Plan.Cut

namespace FrameGraph

variable {σ ι β π ε γ κ : Type}

def ClearValue.canonical : ClearValue → ClearValue
  | .color c => .color c.canonical
  | .depthStencil d => .depthStencil d.canonical

def AttachmentDescription.canonical (a : AttachmentDescription) : AttachmentDescription :=
  { a with clear := a.clear.map .canonical }

/-- The command with no sign at a zero that something is cleared to. -/
def Command.canonical : Command ι β π ε → Command ι β π ε
  | .addColor pass image a => .addColor pass image a.canonical
  | .setDepth pass image a readOnly => .setDepth pass image a.canonical readOnly
  | c => c

def PlanStep.canonical : PlanStep ε → PlanStep ε
  | .command c => .command c.canonical
  | x => x

def Engine.Call.canonical : Engine.Call ι β π ε → Engine.Call ι β π ε
  | .command c => .command c.canonical
  | c => c

namespace Engine

/-- What an engine answers to calls, one after the other. -/
def answers (engine : Engine σ ι β π ε) : List (Call ι β π ε) → σ → List (Except Error (Answer ι β π))
  | [], _ => []
  | c :: calls, s => (engine.answer c s).result :: engine.answers calls (engine.answer c s).state

/-- From the two states, calls that are the same up to signs of zeros are answered alike. -/
def Indistinct (engine : Engine σ ι β π ε) (s t : σ) : Prop :=
  ∀ calls calls', calls.map Call.canonical = calls'.map Call.canonical →
    engine.answers calls s = engine.answers calls' t

/-- No answer depends on the sign of a zero that something is cleared to. -/
def IgnoresSigns (engine : Engine σ ι β π ε) (s : σ) : Prop := engine.Indistinct s s

variable {engine : Engine σ ι β π ε} {s t : σ} {c d : Call ι β π ε}

theorem Indistinct.result (h : engine.Indistinct s t) (hcd : c.canonical = d.canonical) :
    (engine.answer c s).result = (engine.answer d t).result :=
  List.head_eq_of_cons_eq (h [c] [d] (congrArg (fun x => [x]) hcd))

theorem Indistinct.next (h : engine.Indistinct s t) (hcd : c.canonical = d.canonical) :
    engine.Indistinct (engine.answer c s).state (engine.answer d t).state := by
  intro calls calls' hcalls
  refine List.tail_eq_of_cons_eq (h (c :: calls) (d :: calls') ?_)
  rw [List.map_cons, List.map_cons, hcd, hcalls]

/-- A relation of states that calls keep, and under which calls are answered alike, holds only between
states that answers do not tell apart. -/
theorem Indistinct.of_relation {R : σ → σ → Prop}
    (h : ∀ {s t c d}, R s t → Call.canonical c = d.canonical →
      (engine.answer c s).result = (engine.answer d t).result ∧
        R (engine.answer c s).state (engine.answer d t).state) (hst : R s t) :
    engine.Indistinct s t := by
  intro calls calls' hcalls
  induction calls generalizing s t calls' with
  | nil =>
    obtain rfl := List.map_eq_nil_iff.1 hcalls.symm
    rfl
  | cons c calls ih =>
    obtain ⟨d, calls', rfl, hcd, hrest⟩ := List.map_eq_cons_iff.1 hcalls.symm
    obtain ⟨hresult, hnext⟩ := h hst hcd.symm
    exact congrArg₂ List.cons hresult (ih hnext calls' hrest.symm)

end Engine

theorem Attachment.describe_mapClear {f : γ → γ} {clearValue : γ → ClearValue}
    (h : ∀ v, clearValue (f v) = (clearValue v).canonical) (a : Attachment γ) (n : UInt32) :
    (a.mapClear f).describe clearValue n = (a.describe clearValue n).canonical := by
  unfold describe mapClear AttachmentDescription.canonical
  simp only [Option.map_map, AttachmentDescription.mk.injEq, true_and, and_true]
  exact Option.map_congr fun v _ => h v

namespace Plan

open Build Document

variable {frame : Frame} {scope : Scope}

theorem map_canonical_of_forall {p : Plan ε} (h : ∀ x ∈ p, x.canonical = x) :
    p.map .canonical = p :=
  (List.map_congr_left h).trans (List.map_id p)

theorem canonical_of_isOfResource {x : PlanStep ε} (h : x.isOfResource = true) : x.canonical = x := by
  cases x with
  | command => exact absurd h Bool.false_ne_true
  | _ => rfl

theorem canonical_of_isOfOutput {x : PlanStep ε} (h : x.isOfOutput = true) : x.canonical = x := by
  cases x with
  | command c =>
    cases c with
    | addColor | setDepth => exact absurd h Bool.false_ne_true
    | _ => rfl
  | _ => rfl

/-- Parts that are canonical for canonical members make up a canonical plan. -/
theorem flatten_mapIdx_map {f : Nat → κ → Plan ε} {canonical : κ → κ}
    (h : ∀ i k, f i (canonical k) = (f i k).map .canonical) (ks : List κ) :
    ((ks.map canonical).mapIdx f).flatten = (ks.mapIdx f).flatten.map .canonical := by
  rw [List.map_flatten]
  refine congrArg List.flatten (List.ext_getElem (by simp) fun i _ _ => ?_)
  rw [List.getElem_mapIdx, List.getElem_map, List.getElem_map, List.getElem_mapIdx]
  exact h i _

theorem map_canonical_refer (names : List String) (name : String) (e : Error)
    (c : Command String String Unit ε) :
    (refer names name e c).map .canonical = refer names name e c.canonical := by
  unfold refer
  by_cases h : name ∈ names
  · rw [if_pos h, if_pos h]
    rfl
  · rw [if_neg h, if_neg h]
    rfl

theorem map_canonical_ofUses (mode : UseMode) (p : Path) (n : UInt32) (uses : List Use) :
    (ofUses frame scope mode p n uses : Plan ε).map .canonical = ofUses frame scope mode p n uses := by
  refine map_canonical_of_forall (forall_mem_mapIdx (fun i u => ?_) uses)
  have hrefer {names : List String} {name : String} {e : Error} {c : Command String String Unit ε}
      (hc : c.canonical = c) : ∀ x ∈ refer names name e c, x.canonical = x := by
    unfold refer
    by_cases h : name ∈ names <;> simp [h, PlanStep.canonical, hc]
  have hat (m : UInt32) :
      ∀ x ∈ (ofUseAt scope mode (usePath p mode i) u m : Plan ε), x.canonical = x := by
    unfold ofUseAt
    cases u.access with
    | image access => exact hrefer rfl
    | buffer access => exact hrefer rfl
  unfold ofUse
  cases u.repetition with
  | once => exact hat n
  | counted source => exact forall_mem_iterations hat

theorem ofAttachments_canonical (p : Path) (a : Attachments) (n : UInt32) :
    (ofAttachments scope p a.canonical n : Plan ε) = (ofAttachments scope p a n).map .canonical := by
  have hcolor (c : Attachment Color) :
      (c.mapClear .canonical).describe .color n = (c.describe .color n).canonical := by
    have hvalue (v : Color) : ClearValue.color v.canonical = (ClearValue.color v).canonical := rfl
    exact c.describe_mapClear hvalue n
  have hdepth (d : DepthAttachment) : d.canonical.attachment.describe .depthStencil n =
      (d.attachment.describe .depthStencil n).canonical := by
    have hvalue (v : DepthStencil) :
        ClearValue.depthStencil v.canonical = (ClearValue.depthStencil v).canonical := rfl
    exact d.attachment.describe_mapClear hvalue n
  unfold ofAttachments Attachments.canonical
  dsimp only
  rw [List.map_append]
  refine congrArg₂ (· ++ ·) (flatten_mapIdx_map (fun i c => ?_) a.colors) ?_
  · rw [map_canonical_refer, hcolor]
    rfl
  · cases a.depth with
    | none => rfl
    | some d =>
      simp only [Option.map_some, Option.toList_some, List.flatMap_singleton, map_canonical_refer,
        hdepth]
      rfl

theorem inPass_canonical (position : Nat) (d : Pass) (executor : ε) (n : UInt32) :
    inPass frame scope position d.canonical executor n =
      (inPass frame scope position d executor n).map .canonical := by
  have hheading : (heading d executor).map .canonical = heading d executor := by
    unfold heading
    cases d.work.domain? <;> rfl
  rw [inPass_eq, inPass_eq, List.map_append, List.map_append, List.map_append, List.map_append,
    hheading, map_canonical_ofUses, map_canonical_ofUses, ← ofAttachments_canonical]
  rfl

theorem ofPassAt_canonical (executors : String → Option ε) (position : Nat) (d : Pass) (n : UInt32) :
    ofPassAt frame executors scope position d.canonical n =
      (ofPassAt frame executors scope position d n).map .canonical := by
  cases he : executors d.execute with
  | none =>
    rw [ofPassAt_of_none he, ofPassAt_of_none (d := d.canonical) he]
    rfl
  | some executor =>
    rw [ofPassAt_of_some he, ofPassAt_of_some (d := d.canonical) he, inPass_canonical, List.map_cons]
    rfl

theorem ofPass_canonical (executors : String → Option ε) (position : Nat) (d : Pass) :
    ofPass frame executors scope position d.canonical =
      (ofPass frame executors scope position d).map .canonical := by
  unfold ofPass
  by_cases ha : frame.admits d.condition = true
  · rw [if_pos ha, if_pos (c := frame.admits d.canonical.condition = true) ha, List.map_flatMap]
    exact List.flatMap_congr fun n _ => ofPassAt_canonical executors position d n
  · rw [if_neg ha, if_neg (c := frame.admits d.canonical.condition = true) ha]
    rfl

end Plan

namespace Graph

open Plan

theorem passRequests_canonical (g : Graph) (frame : Frame) :
    g.canonical.passRequests frame = g.passRequests frame :=
  List.flatMap_map ..

theorem stats_canonical (g : Graph) (frame : Frame) : g.canonical.stats frame = g.stats frame := by
  unfold stats
  rw [passRequests_canonical]
  have hskipped : g.canonical.passes.countP (fun p => !frame.admits p.condition) =
      g.passes.countP fun p => !frame.admits p.condition :=
    List.countP_map
  rw [hskipped]
  rfl

theorem plan_canonical (g : Graph) (frame : Frame) (executors : String → Option ε) :
    g.canonical.plan frame executors = (g.plan frame executors).map .canonical := by
  have hresources : ((g.resources.mapIdx (ofResource frame)).flatten : Plan ε).map .canonical =
      (g.resources.mapIdx (ofResource frame)).flatten :=
    map_canonical_of_forall (forall_mem_mapIdx (fun i r x hx =>
      canonical_of_isOfResource (isOfResource_ofResource i r x hx)) _)
  have houtputs : (ofOutputs (g.scope frame) g.outputs : Plan ε).map .canonical =
      ofOutputs (g.scope frame) g.outputs :=
    map_canonical_of_forall fun x hx => canonical_of_isOfOutput (isOfOutput_ofOutputs _ x hx)
  have hpasses : (g.canonical.passes.mapIdx (ofPass frame executors (g.scope frame))).flatten =
      (g.passes.mapIdx (ofPass frame executors (g.scope frame))).flatten.map .canonical :=
    flatten_mapIdx_map (fun i d => ofPass_canonical executors i d) g.passes
  rw [plan_eq, plan_eq, List.map_append, List.map_append, List.map_append, hresources, houtputs,
    ← hpasses, stats_canonical]
  rfl

end Graph

namespace Plan

variable {engine : Engine σ ι β π ε} {h : Handles ι β π} {x y : PlanStep ε} {s t : σ}

theorem resolve?_canonical (h : Handles ι β π) (c : Command String String Unit ε) :
    h.resolve? c.canonical = (h.resolve? c).map .canonical := by
  cases c <;> simp [Handles.resolve?, Command.canonical, Option.map_bind, Function.comp_def]

theorem call?_canonical (h : Handles ι β π) (x : PlanStep ε) :
    h.call? x.canonical = (h.call? x).map .canonical := by
  cases x with
  | command c =>
    show (h.resolve? c.canonical).map _ = ((h.resolve? c).map _).map _
    rw [resolve?_canonical, Option.map_map, Option.map_map]
    rfl
  | _ => rfl

theorem keep_canonical (h : Handles ι β π) (x : PlanStep ε) : h.keep x.canonical = h.keep x := by
  cases x <;> rfl

theorem step_canonical_of_no_call (hx : h.call? x = none) :
    step engine h x.canonical = step engine h x := by
  cases x with
  | command c =>
    have hc : h.resolve? c = none := Option.map_eq_none_iff.1 hx
    have hc' : h.resolve? c.canonical = none := by rw [resolve?_canonical, hc]; rfl
    simp only [step, PlanStep.canonical, hc, hc']
  | _ => rfl

/-- Steps that are the same up to signs make calls that are the same up to signs. If these are answered
alike, the steps give the same handles, and so will the next ones. -/
theorem step_of_canonical_eq (hst : engine.Indistinct s t) (hxy : x.canonical = y.canonical) :
    (h.call? x).map .canonical = (h.call? y).map Engine.Call.canonical ∧
      (step engine h x s).result = (step engine h y t).result ∧
      engine.Indistinct (step engine h x s).state (step engine h y t).state := by
  have hcalls : (h.call? x).map .canonical = (h.call? y).map Engine.Call.canonical := by
    rw [← call?_canonical, hxy, call?_canonical]
  refine ⟨hcalls, ?_⟩
  cases hx : h.call? x with
  | none =>
    have hy : h.call? y = none := by
      rw [hx] at hcalls
      exact Option.map_eq_none_iff.1 hcalls.symm
    have hsame : step engine h y = step engine h x := by
      rw [← step_canonical_of_no_call hy, ← hxy, step_canonical_of_no_call hx]
    obtain ⟨log, result, hstep⟩ := step_of_no_call hx
    rw [hsame, hstep, hstep]
    exact ⟨rfl, hst⟩
  | some c =>
    rw [hx] at hcalls
    obtain ⟨d, hy, hcd⟩ := Option.map_eq_some_iff.1 hcalls.symm
    have hkeep : h.keep x = h.keep y := by rw [← keep_canonical, hxy, keep_canonical]
    rw [step_of_call engine hx, step_of_call engine hy, Action.map_apply, Action.map_apply, hkeep,
      hst.result hcd.symm]
    exact ⟨rfl, hst.next hcd.symm⟩

/-- Plans that are the same up to signs make calls that are the same up to signs, and have one result. -/
theorem run_of_canonical_eq {p q : Plan ε} (hpq : p.map .canonical = q.map PlanStep.canonical)
    (h : Handles ι β π) (hst : engine.Indistinct s t) (calls calls' : List (Engine.Call ι β π ε)) :
    ∃ new new', run engine.listed p h (s, calls) = (run engine p h s).withTally (calls ++ new) ∧
      run engine.listed q h (t, calls') = (run engine q h t).withTally (calls' ++ new') ∧
      new.map .canonical = new'.map Engine.Call.canonical ∧
      (run engine p h s).result = (run engine q h t).result := by
  induction p generalizing q h s t calls calls' with
  | nil =>
    obtain rfl := List.map_eq_nil_iff.1 hpq.symm
    exact ⟨[], [], by rw [List.append_nil]; rfl, by rw [List.append_nil]; rfl, rfl, rfl⟩
  | cons x p ih =>
    obtain ⟨y, q, rfl, hxy, hpq⟩ := List.map_eq_cons_iff.1 hpq.symm
    obtain ⟨hcalls, hresult, hnext⟩ := step_of_canonical_eq (h := h) hst hxy.symm
    have hx := step_listed engine h x s calls
    have hy := step_listed engine h y t calls'
    have hnew : (h.call? x).toList.map .canonical =
        (h.call? y).toList.map Engine.Call.canonical := by
      rw [← Option.toList_map, ← Option.toList_map, hcalls]
    unfold run
    rcases hstep : step engine h x s with ⟨s', log, result⟩
    rcases hstep' : step engine h y t with ⟨t', log', result'⟩
    rw [hstep, hstep'] at hresult hnext
    obtain rfl : result = result' := hresult
    rw [hstep] at hx
    rw [hstep'] at hy
    cases result with
    | error e =>
      rw [Action.bind_of_error hstep, Action.bind_of_error hx, Action.bind_of_error hstep',
        Action.bind_of_error hy]
      exact ⟨_, _, rfl, rfl, hnew, rfl⟩
    | ok h' =>
      obtain ⟨new, new', hrun, hrun', hsame, hend⟩ := ih hpq.symm h' hnext
        (calls ++ (h.call? x).toList) (calls' ++ (h.call? y).toList)
      rw [Action.bind_of_ok hstep, Action.bind_of_ok hx, Action.bind_of_ok hstep',
        Action.bind_of_ok hy, hrun, hrun']
      refine ⟨(h.call? x).toList ++ new, (h.call? y).toList ++ new', ?_, ?_, ?_, hend⟩
      · rw [← List.append_assoc]
        rfl
      · rw [← List.append_assoc]
        rfl
      · rw [List.map_append, List.map_append, hnew, hsame]

end Plan

namespace Graph

open Plan

theorem plan_of_canonical_eq {a b : Graph} (hab : a.canonical = b.canonical) (frame : Frame)
    (executors : String → Option ε) :
    (a.plan frame executors).map .canonical = (b.plan frame executors).map PlanStep.canonical := by
  rw [← plan_canonical, hab, plan_canonical]

/-- Equality is an equivalence on the graphs of documents, and tables of names make no difference to it.
Builds of equal graphs make the same calls up to signs of zeros and have one result, on every engine
whose answers do not depend on such signs. -/
theorem equality_respected {da db dc : Json} {a b c : Graph} (ha : ofDocument da = .ok a)
    (hb : ofDocument db = .ok b) (hc : ofDocument dc = .ok c) :
    (a == a) = true ∧ ((a == b) = true → (b == a) = true) ∧
    ((a == b) = true → (b == c) = true → (a == c) = true) ∧
    ((a == b) = true ↔ a.version = b.version ∧ a.name = b.name ∧ a.resources = b.resources ∧
      (a.passes == b.passes) = true ∧ a.outputs = b.outputs) ∧
    ((a == b) = true ↔ a.loose.Equals b.loose) ∧
    ((a == b) = true → ∀ (frame : Frame) (σ ι β π ε : Type) (executors : String → Option ε)
      (engine : Engine σ ι β π ε) (s : σ), engine.IgnoresSigns s → ∃ calls calls',
        a.build engine.listed frame executors (s, []) =
          (a.build engine frame executors s).withTally calls ∧
        b.build engine.listed frame executors (s, []) =
          (b.build engine frame executors s).withTally calls' ∧
        calls.map .canonical = calls'.map Engine.Call.canonical ∧
        (a.build engine frame executors s).result = (b.build engine frame executors s).result) := by
  have hab := comparedBy a b (clearsToNumbers_of_ofDocument ha) (clearsToNumbers_of_ofDocument hb)
  have hba := comparedBy b a (clearsToNumbers_of_ofDocument hb) (clearsToNumbers_of_ofDocument ha)
  have hbc := comparedBy b c (clearsToNumbers_of_ofDocument hb) (clearsToNumbers_of_ofDocument hc)
  have hac := comparedBy a c (clearsToNumbers_of_ofDocument ha) (clearsToNumbers_of_ofDocument hc)
  have haa := comparedBy a a (clearsToNumbers_of_ofDocument ha) (clearsToNumbers_of_ofDocument ha)
  refine ⟨haa.2 rfl, fun h => hba.2 (hab.1 h).symm, fun h h' => hac.2 ((hab.1 h).trans (hbc.1 h')),
    beq_iff_of_ofDocument ha hb, loose_equals_iff.symm, ?_⟩
  intro h frame σ ι β π ε executors engine s hs
  have hsame : a.canonical = b.canonical := hab.1 h
  obtain ⟨calls, calls', hrun, hrun', hcalls, hresult⟩ :=
    run_of_canonical_eq (plan_of_canonical_eq hsame frame executors) {} hs [] []
  have hstats : a.stats frame = b.stats frame := by
    rw [← stats_canonical, hsame, stats_canonical]
  rw [(a.build_agrees_run engine frame executors).eq_map,
    (a.build_agrees_run engine.listed frame executors).eq_map,
    (b.build_agrees_run engine frame executors).eq_map,
    (b.build_agrees_run engine.listed frame executors).eq_map]
  refine ⟨calls, calls', Action.map_withTally _ hrun, Action.map_withTally _ hrun', hcalls, ?_⟩
  rw [Action.map_apply, Action.map_apply, hresult, hstats]

end Graph

namespace Transcript

variable {α : Type}

/-- The transcripts list as many calls, and nothing else of them differs. -/
inductive SameButCalls (t : Transcript ε) : Transcript ε → Prop where
  | relist (calls : List (FrameGraph.Call ε)) (h : calls.length = t.calls.length) :
    SameButCalls t { t with calls }

/-- The actions end alike on transcripts that differ in nothing but the calls that they list. -/
def Alike (x y : Action (Transcript ε) α) : Prop :=
  ∀ t t', SameButCalls t t' → (x t).result = (y t').result ∧ SameButCalls (x t).state (y t').state

theorem Alike.bind {x y : Action (Transcript ε) α} {f g : α → Action (Transcript ε) β}
    (hxy : Alike x y) (hfg : ∀ a, Alike (f a) (g a)) : Alike (x >>= f) (y >>= g) := by
  intro t t' ht
  obtain ⟨hresult, hstate⟩ := hxy t t' ht
  rcases hx : x t with ⟨u, log, result⟩
  rcases hy : y t' with ⟨u', log', result'⟩
  rw [hx, hy] at hresult hstate
  obtain rfl : result = result' := hresult
  cases result with
  | error e =>
    rw [Action.bind_of_error hx, Action.bind_of_error hy]
    exact ⟨rfl, hstate⟩
  | ok a =>
    rw [Action.bind_of_ok hx, Action.bind_of_ok hy]
    exact hfg a u u' hstate

theorem Alike.map {x y : Action (Transcript ε) α} (f : α → β) (h : Alike x y) :
    Alike (f <$> x) (f <$> y) := by
  intro t t' ht
  obtain ⟨hresult, hstate⟩ := h t t' ht
  rw [Action.map_apply, Action.map_apply, hresult]
  exact ⟨rfl, hstate⟩

/-- What is listed does not matter. -/
theorem alike_list (c d : FrameGraph.Call ε) : Alike (list c) (list d) := by
  rintro t _ ⟨calls, h⟩
  unfold list
  dsimp only
  rw [h]
  refine ⟨rfl, .relist _ ?_⟩
  rw [List.length_append, List.length_append, h]
  rfl

theorem alike_answer {c d : Engine.Call Nat Nat Nat ε} (hcd : c.canonical = d.canonical) :
    Alike (engine.answer c) (engine.answer d) := by
  cases c with
  | image =>
    cases d with
    | image =>
      refine ((alike_list _ _).bind fun _ => ?_).map _
      rintro t _ ⟨calls, h⟩
      exact ⟨rfl, .relist calls h⟩
    | _ => exact absurd hcd nofun
  | buffer =>
    cases d with
    | buffer =>
      refine ((alike_list _ _).bind fun _ => ?_).map _
      rintro t _ ⟨calls, h⟩
      exact ⟨rfl, .relist calls h⟩
    | _ => exact absurd hcd nofun
  | pass =>
    cases d with
    | pass =>
      refine ((alike_list _ _).bind fun _ => ?_).map _
      rintro t _ ⟨calls, h⟩
      exact ⟨rfl, .relist calls h⟩
    | _ => exact absurd hcd nofun
  | command =>
    cases d with
    | command => exact (alike_list _ _).map _
    | _ => exact absurd hcd nofun

/-- A transcript tells its calls apart by their number alone. -/
theorem ignoresSigns_engine (t : Transcript ε) : engine.IgnoresSigns t :=
  Engine.Indistinct.of_relation (fun ht hcd => alike_answer hcd _ _ ht) (.relist t.calls rfl)

end Transcript

namespace Graph

/-- A depth that is cleared to a zero. -/
def cleared (negative : Bool) : Graph where
  version := 1
  name := "cleared"
  resources :=
    [{ name := "depth", condition := .always, repetition := .once, flags := .empty
       body := .image
        { importName := some "depth", extent := .window, layers := .fixed 1
          format := .swapchainDepth, usage := .empty } }]
  passes :=
    [{ name := "clear", work := .graphics .world, flags := .empty, condition := .always
       repetition := .once, reads := [], writes := []
       attachments :=
        { colors := []
          depth := some
            { attachment :=
                { image := "depth", load := .clear, store := .store
                  clear := some ⟨⟨negative, 0, by decide⟩, 0⟩, slice := none }
              readOnly := false } }
       execute := "clear" }]
  outputs := .none
  resourceNames := .positions ["depth"]
  passNames := .positions ["clear"]

/-- Two graphs that differ in the sign of a zero, and are equal. -/
theorem cleared_equality_respected :
    ofDocument (cleared false).document = .ok (cleared false) ∧
    ofDocument (cleared true).document = .ok (cleared true) ∧
    (cleared false == cleared true) = true ∧ (cleared true == cleared false) = true ∧
    ∃ calls calls',
      (cleared false).build Transcript.engine.listed {} some ({}, []) =
        ((cleared false).build Transcript.engine {} some {}).withTally calls ∧
      (cleared true).build Transcript.engine.listed {} some ({}, []) =
        ((cleared true).build Transcript.engine {} some {}).withTally calls' ∧
      calls.map .canonical = calls'.map Engine.Call.canonical ∧
      ((cleared false).build Transcript.engine {} some {}).result =
        ((cleared true).build Transcript.engine {} some {}).result := by
  have hpositive : ofDocument (cleared false).document = .ok (cleared false) := by rfl
  have hnegative : ofDocument (cleared true).document = .ok (cleared true) := by rfl
  have hequal : (cleared false == cleared true) = true := by decide
  obtain ⟨-, hsymm, -, -, -, hbuild⟩ := equality_respected hpositive hnegative hpositive
  exact ⟨hpositive, hnegative, hequal, hsymm hequal,
    hbuild hequal _ _ _ _ _ _ _ _ _ (Transcript.ignoresSigns_engine {})⟩

end Graph

end FrameGraph
