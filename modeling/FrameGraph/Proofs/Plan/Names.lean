import FrameGraph.Proofs.Plan.Calls
import FrameGraph.Proofs.Recording.Build
import FrameGraph.Proofs.Template.Pieces
import Mathlib.Data.List.Flatten

namespace FrameGraph

variable {ε : Type} {frame : Frame}

namespace Plan

/-- The part requests nothing but the names of the template at the iterations, in order, and all of them
if nothing stops it. -/
structure Instantiates (template : String) (ns : List UInt32) (part : Plan ε) : Prop where
  some : part.requested.Sublist (ns.map (Template.expand template))
  all : Stopless part → part.requested = ns.map (Template.expand template)
  distinct : Template.HasToken template → part.requested.Nodup
  same : ¬Template.HasToken template → ∀ name ∈ part.requested, name = template

theorem nodup_iterations (n : UInt32) : (iterations n).Nodup := by
  refine List.Nodup.map_on ?_ List.nodup_range
  intro i hi j hj heq
  have hlt {k : Nat} (hk : k ∈ List.range n.toNat) : k < UInt32.size :=
    Nat.lt_trans (List.mem_range.1 hk) n.toNat_lt
  rw [← UInt32.toNat_ofNat_of_lt' (hlt hi), heq, UInt32.toNat_ofNat_of_lt' (hlt hj)]

theorem instantiates_nil (template : String) {part : Plan ε} (h : part.requested = []) :
    Instantiates template [] part where
  some := h ▸ List.Sublist.refl _
  all _ := h
  distinct _ := h ▸ List.nodup_nil
  same _ _ hname := absurd (h ▸ hname) List.not_mem_nil

/-- Parts for one iteration each make up a part for all of them. A part for one iteration requests its
name, or it stops first. -/
theorem instantiates_flatMap {template : String} {f : UInt32 → Plan ε} {ns : List UInt32}
    (hns : ns.Nodup) (hf : ∀ n, (f n).requested = [Template.expand template n] ∨
      (f n).requested = [] ∧ ¬Stopless (f n)) :
    Instantiates template ns (ns.flatMap f) := by
  have hsplit : requested (ns.flatMap f) = ns.flatMap fun n => (f n).requested :=
    List.filterMap_flatMap
  have hmap : ns.map (Template.expand template) = ns.flatMap fun n => [Template.expand template n] :=
    List.map_eq_flatMap
  have hsublist : (requested (ns.flatMap f)).Sublist (ns.map (Template.expand template)) := by
    rw [hsplit, hmap]
    refine List.Sublist.flatMap_right ns fun n _ => ?_
    rcases hf n with hname | ⟨hnone, -⟩
    · rw [hname]
    · rw [hnone]
      exact List.nil_sublist _
  refine ⟨hsublist, fun hstopless => ?_, fun htoken => ?_, fun hnone name hname => ?_⟩
  · rw [hsplit, hmap]
    refine List.flatMap_congr fun n hn => (hf n).resolve_right fun hstop => ?_
    exact hstop.2 (stopless_flatMap.1 hstopless n hn)
  · exact hsublist.nodup (hns.map fun m n => Template.expand_injective htoken)
  · obtain ⟨n, -, rfl⟩ := List.mem_map.1 (hsublist.subset hname)
    exact Template.expand_of_not_hasToken hnone n

theorem requested_of_isInPass {p : Plan ε} (hp : ∀ x ∈ p, x.isInPass = true) : p.requested = [] := by
  refine List.filterMap_eq_nil_iff.2 fun x hx => ?_
  have hin := hp x hx
  cases x with
  | image | buffer | pass => exact absurd hin Bool.false_ne_true
  | _ => rfl

/-- A plan that begins with a stop is not run to its end. -/
theorem not_stopless_stop (e : Error) : ¬Stopless ([.stop e] : Plan ε) := fun h =>
  Bool.false_ne_true (h _ (List.mem_singleton_self _)).symm

/-- One instance of a resource is requested under its name, unless it has no layers. -/
theorem requested_ofResourceAt (position : Nat) (r : Resource) (n : UInt32) :
    (ofResourceAt frame position r n : Plan ε).requested = [Template.expand r.name n] ∨
      (ofResourceAt frame position r n : Plan ε).requested = [] ∧
        ¬Stopless (ofResourceAt frame position r n : Plan ε) := by
  unfold ofResourceAt
  cases r.body with
  | buffer b => exact .inl rfl
  | image i =>
    dsimp only
    by_cases hlayers : (r.imageRequest i frame n).description.layers = 0
    · rw [if_pos hlayers]
      exact .inr ⟨rfl, not_stopless_stop _⟩
    · rw [if_neg hlayers]
      exact .inl rfl

/-- One instance of a pass is requested under its name, unless its executor is missing. -/
theorem requested_ofPassAt (executors : String → Option ε) (scope : Scope) (position : Nat) (d : Pass)
    (n : UInt32) :
    (ofPassAt frame executors scope position d n).requested = [Template.expand d.name n] ∨
      (ofPassAt frame executors scope position d n).requested = [] ∧
        ¬Stopless (ofPassAt frame executors scope position d n) := by
  cases he : executors d.execute with
  | none =>
    rw [ofPassAt_of_none he]
    exact .inr ⟨rfl, not_stopless_stop _⟩
  | some executor =>
    rw [ofPassAt_of_some he, requested_cons, requested_of_isInPass (isInPass_inPass _ _ _ _)]
    exact .inl rfl

/-- The part of a declaration that the frame may not admit. -/
theorem instantiates_admitted {template : String} {f : UInt32 → Plan ε}
    (hf : ∀ n, (f n).requested = [Template.expand template n] ∨
      (f n).requested = [] ∧ ¬Stopless (f n)) (c : Condition) (r : Repetition) (severity : Severity)
    (message : String) :
    Instantiates template (frame.iterations c r)
      (if frame.admits c then (iterations (frame.instances r)).flatMap f
        else [.note severity message]) := by
  unfold Frame.iterations
  by_cases ha : frame.admits c = true
  · rw [if_pos ha, if_pos ha]
    exact instantiates_flatMap (nodup_iterations _) hf
  · rw [if_neg ha, if_neg ha]
    exact instantiates_nil template rfl

theorem instantiates_ofResource (position : Nat) (r : Resource) :
    Instantiates r.name (frame.iterations r.condition r.repetition)
      (ofResource frame position r : Plan ε) :=
  instantiates_admitted (requested_ofResourceAt position r) ..

theorem instantiates_ofPass (executors : String → Option ε) (scope : Scope) (position : Nat)
    (d : Pass) :
    Instantiates d.name (frame.iterations d.condition d.repetition)
      (ofPass frame executors scope position d) :=
  instantiates_admitted (requested_ofPassAt executors scope position d) ..

/-- The part of one member in what is put together from the parts of all. -/
theorem exists_split_mapIdx {α : Type} (f : Nat → α → Plan ε) {as : List α} {i : Nat} {a : α}
    (h : as[i]? = some a) : ∃ before after, (as.mapIdx f).flatten = before ++ f i a ++ after := by
  obtain ⟨hi, rfl⟩ := List.getElem?_eq_some_iff.1 h
  obtain ⟨before, after, hsplit⟩ := List.append_of_mem (List.mem_mapIdx.2 ⟨i, hi, rfl⟩)
  refine ⟨before.flatten, after.flatten, ?_⟩
  rw [hsplit, List.flatten_append, List.flatten_cons, List.append_assoc]

end Plan

namespace Graph

open Plan

theorem exists_split_ofResource (g : Graph) (frame : Frame) (executors : String → Option ε)
    {position : Nat} {r : Resource} (hr : g.resources[position]? = some r) :
    ∃ before after, g.plan frame executors = before ++ ofResource frame position r ++ after := by
  obtain ⟨before, after, hsplit⟩ := exists_split_mapIdx (ofResource frame (ε := ε)) hr
  refine ⟨before, after ++ ((g.passes.mapIdx (ofPass frame executors (g.scope frame))).flatten ++
    (ofOutputs (g.scope frame) g.outputs ++
      [.note .debug (Build.finished g.name (g.stats frame))])), ?_⟩
  rw [plan_eq, hsplit]
  simp only [List.append_assoc]

theorem exists_split_ofPass (g : Graph) (frame : Frame) (executors : String → Option ε)
    {position : Nat} {d : Pass} (hd : g.passes[position]? = some d) :
    ∃ before after, g.plan frame executors =
      before ++ ofPass frame executors (g.scope frame) position d ++ after := by
  obtain ⟨before, after, hsplit⟩ := exists_split_mapIdx (ofPass frame executors (g.scope frame)) hd
  refine ⟨(g.resources.mapIdx (ofResource frame)).flatten ++ before,
    after ++ (ofOutputs (g.scope frame) g.outputs ++
      [.note .debug (Build.finished g.name (g.stats frame))]), ?_⟩
  rw [plan_eq, hsplit]
  simp only [List.append_assoc]

/-- Different iterations of a template that holds the token have different names. So what the plan of a
build has for one declaration requests different names if its template holds the token, whatever the
number of cascades, and the template itself again and again if not; and a build, on any engine, requests
the names of its plan in order, from the first one on. -/
theorem iterations_named_apart (g : Graph) (frame : Frame) (executors : String → Option ε) :
    (∀ t, Template.HasToken t → ∀ m n, Template.expand t m = Template.expand t n → m = n) ∧
    (∀ position r, g.resources[position]? = some r → ∃ part before after,
      g.plan frame executors = before ++ part ++ after ∧ part = ofResource frame position r ∧
        Instantiates r.name (frame.iterations r.condition r.repetition) part) ∧
    (∀ position d, g.passes[position]? = some d → ∃ part before after,
      g.plan frame executors = before ++ part ++ after ∧
        part = ofPass frame executors (g.scope frame) position d ∧
        Instantiates d.name (frame.iterations d.condition d.repetition) part) ∧
    ∀ (σ ι β π : Type) (engine : Engine σ ι β π ε) (s : σ), ∃ calls,
      g.build engine.listed frame executors (s, []) =
          (g.build engine frame executors s).withTally calls ∧
        calls.filterMap Engine.Call.requested? <+: (g.plan frame executors).requested := by
  refine ⟨fun t ht m n => Template.expand_injective ht, ?_, ?_, ?_⟩
  · intro position r hr
    obtain ⟨before, after, hsplit⟩ := g.exists_split_ofResource frame executors hr
    exact ⟨_, before, after, hsplit, rfl, instantiates_ofResource position r⟩
  · intro position d hd
    obtain ⟨before, after, hsplit⟩ := g.exists_split_ofPass frame executors hd
    exact ⟨_, before, after, hsplit, rfl, instantiates_ofPass executors _ position d⟩
  · intro σ ι β π engine s
    obtain ⟨calls, hrun, hnames⟩ := run_listed engine (g.plan frame executors) {} s []
    rw [(g.build_agrees_run engine frame executors).eq_map,
      (g.build_agrees_run engine.listed frame executors).eq_map]
    exact ⟨calls, Action.map_withTally _ hrun, hnames⟩

/-- The maps of three cascades and the passes that draw them, with names that would stay different with
ten cascades and more. -/
theorem cascades_named_apart :
    Template.expand "cascade${i}" 1 ≠ Template.expand "cascade${i}" 10 ∧
    (∃ part before after, cascades.plan { shadowCascadeCount := 3 } some = before ++ part ++ after ∧
      part.requested = ["cascade0", "cascade1", "cascade2"] ∧ part.requested.Nodup) ∧
    (∃ part before after, cascades.plan { shadowCascadeCount := 3 } some = before ++ part ++ after ∧
      part.requested = ["shadow0", "shadow1", "shadow2"] ∧ part.requested.Nodup) ∧
    ∃ calls, cascades.build Recording.engine.listed { shadowCascadeCount := 3 } some ({}, []) =
        (cascades.build Recording.engine { shadowCascadeCount := 3 } some {}).withTally calls ∧
      calls.filterMap Engine.Call.requested? <+:
        (cascades.plan { shadowCascadeCount := 3 } some).requested := by
  obtain ⟨hapart, hresources, hpasses, hcalls⟩ :=
    iterations_named_apart cascades { shadowCascadeCount := 3 } some
  refine ⟨fun heq => absurd (hapart _ (by decide) 1 10 heq) (by decide), ?_, ?_, hcalls _ _ _ _ _ _⟩
  · obtain ⟨part, before, after, hplan, rfl, hpart⟩ := hresources 0 _ rfl
    refine ⟨_, before, after, hplan, (hpart.all ?_).trans ?_, hpart.distinct ?_⟩ <;> decide +kernel
  · obtain ⟨part, before, after, hplan, rfl, hpart⟩ := hpasses 0 _ rfl
    refine ⟨_, before, after, hplan, (hpart.all ?_).trans ?_, hpart.distinct ?_⟩ <;> decide +kernel

end Graph

end FrameGraph
