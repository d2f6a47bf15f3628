import FrameGraph.Proofs.Agreement
import FrameGraph.Proofs.Plan.Run

namespace FrameGraph

namespace Plan

open Build Document FrameGraph.Action

variable {σ ι β π ε α κ : Type} {engine : Engine σ ι β π ε} {frame : Frame}

/-- The handles of a run are those that the build knows. -/
structure Follows (known : Known ι β) (h : Handles ι β π) : Prop where
  images : h.images = known.images
  buffers : h.buffers = known.buffers

/-- The build and the run after the requests given, and some resources that the frame does not admit. -/
structure Declared (images : List ImageRequest) (buffers : List BufferRequest) (skipped : Nat)
    (b : Known ι β × Stats) (h : Handles ι β π) : Prop where
  follows : Follows b.1 h
  imageNames : b.1.images.map Prod.fst = (images.map (·.name)).reverse
  bufferNames : b.1.buffers.map Prod.fst = (buffers.map (·.name)).reverse
  stats : b.2 =
    { images := .ofNat images.length, buffers := .ofNat buffers.length
      skippedResources := .ofNat skipped }

theorem agrees_instantiate (position : Nat) (r : Resource) (n : UInt32)
    {images : List ImageRequest} {buffers : List BufferRequest} {skipped : Nat}
    {b : Known ι β × Stats} {h : Handles ι β π} (hd : Declared images buffers skipped b h) :
    Agrees (Declared (images ++ r.imagesAt frame [n]) (buffers ++ r.buffersAt [n]) skipped)
      (instantiate engine frame position r n b) (run engine (ofResourceAt frame position r n) h) := by
  obtain ⟨known, stats⟩ := b
  obtain ⟨⟨hi, hb⟩, hin, hbn, hs⟩ := hd
  dsimp only at hi hb hin hbn hs
  unfold instantiate ofResourceAt Resource.imagesAt Resource.buffersAt
  cases r.body with
  | image i =>
    dsimp only
    by_cases hl : (r.imageRequest i frame n).description.layers = 0
    · rw [if_pos hl, if_pos hl, run_stop, fail_bind]
      exact agrees_fail _ _ _
    · rw [if_neg hl, if_neg hl, run_image]
      refine (agrees_refl _).bind ?_
      rintro image _ rfl
      rw [run_note]
      refine (agrees_refl _).bind fun _ _ _ => agrees_pure ⟨⟨?_, hb⟩, ?_, ?_, ?_⟩
      · simp [Known.addImage, hi]
      · simp [Known.addImage, hin]
      · simpa [Known.addImage] using hbn
      · simp [hs]
  | buffer d =>
    dsimp only
    rw [run_buffer]
    refine (agrees_refl _).bind ?_
    rintro buffer _ rfl
    rw [run_note]
    refine (agrees_refl _).bind fun _ _ _ => agrees_pure ⟨⟨hi, ?_⟩, ?_, ?_, ?_⟩
    · simp [Known.addBuffer, hb]
    · simpa [Known.addBuffer] using hin
    · simp [Known.addBuffer, hbn]
    · simp [hs]

theorem agrees_declareResource (position : Nat) (r : Resource)
    {images : List ImageRequest} {buffers : List BufferRequest} {skipped : Nat}
    {b : Known ι β × Stats} {h : Handles ι β π} (hd : Declared images buffers skipped b h) :
    Agrees
      (Declared (images ++ r.imagesAt frame (frame.iterations r.condition r.repetition))
        (buffers ++ r.buffersAt (frame.iterations r.condition r.repetition))
        (skipped + [r].countP fun r => !frame.admits r.condition))
      (declareResource engine frame position r b)
      (run engine (ofResource frame position r) h) := by
  unfold declareResource ofResource Frame.iterations
  by_cases ha : frame.admits r.condition = true
  · have hc : ([r].countP fun r => !frame.admits r.condition) = 0 := by simp [ha]
    rw [if_pos ha, if_pos ha, if_pos ha, hc, run_iterations]
    let ns (k : Nat) := (List.range k).map UInt32.ofNat
    refine Agrees.iterate
      (fun k => Declared (images ++ r.imagesAt frame (ns k)) (buffers ++ r.buffersAt (ns k)) skipped)
      ?_ _ ?_
    · intro k b' h' hk
      have hns : ns (k + 1) = ns k ++ [.ofNat k] := by simp [ns, List.range_succ]
      rw [hns, Resource.imagesAt_append, Resource.buffersAt_append, ← List.append_assoc,
        ← List.append_assoc]
      exact agrees_instantiate position r _ hk
    · simpa [ns, Resource.imagesAt_nil, Resource.buffersAt_nil] using hd
  · have hc : ([r].countP fun r => !frame.admits r.condition) = 1 := by simp [ha]
    rw [if_neg ha, if_neg ha, if_neg ha, hc, run_note]
    refine (agrees_refl _).bind fun _ _ _ => agrees_pure ?_
    rw [Resource.imagesAt_nil, Resource.buffersAt_nil, List.append_nil, List.append_nil]
    exact ⟨hd.follows, hd.imageNames, hd.bufferNames, by simp [hd.stats]⟩

/-- The resources of a list: what they request has been declared, and the others were skipped. -/
theorem agrees_declareResources (rs : List Resource) :
    Agrees
      (Declared
        (rs.flatMap fun r => r.imagesAt frame (frame.iterations r.condition r.repetition))
        (rs.flatMap fun r => r.buffersAt (frame.iterations r.condition r.repetition))
        (rs.countP fun r => !frame.admits r.condition))
      (forEach (declareResource engine frame) 0 rs ({}, {}))
      (run engine (rs.mapIdx (ofResource frame)).flatten {}) := by
  rw [run_flatten_mapIdx]
  refine Agrees.forEach (fun done => Declared
    (done.flatMap fun r => r.imagesAt frame (frame.iterations r.condition r.repetition))
    (done.flatMap fun r => r.buffersAt (frame.iterations r.condition r.repetition))
    (done.countP fun r => !frame.admits r.condition)) ?_ rs ?_
  · intro done r b h hd
    rw [List.flatMap_append, List.flatMap_append, List.countP_append, List.flatMap_singleton,
      List.flatMap_singleton]
    exact agrees_declareResource done.length r hd
  · exact ⟨⟨rfl, rfl⟩, rfl, rfl, rfl⟩

/-- A plan has in scope the names that the build knows. -/
structure Covers (scope : Scope) (known : Known ι β) : Prop where
  images : ∀ name, name ∈ scope.images ↔ name ∈ known.images.map Prod.fst
  buffers : ∀ name, name ∈ scope.buffers ↔ name ∈ known.buffers.map Prod.fst

/-- The handles within a pass. -/
structure Inside (known : Known ι β) (pass : π) (h : Handles ι β π) : Prop where
  follows : Follows known h
  pass : h.pass = some pass

/-- A name is in scope exactly if the build finds a handle for it. -/
theorem agrees_refer {table : List (String × κ)} {scope : List String}
    (hs : ∀ name, name ∈ scope ↔ name ∈ table.map Prod.fst) (name : String) (e : Error)
    {h : Handles ι β π} {c : Command String String Unit ε} (c' : κ → Command ι β π ε)
    (hc : ∀ k, table.lookup name = some k → h.resolve? c = some (c' k)) :
    Agrees (fun _ h' => h' = h) (found (table.lookup name) e >>= fun k => engine.command (c' k))
      (run engine (refer scope name e c) h) := by
  have hmem := mem_map_fst_iff_lookup table name
  unfold refer
  cases hk : table.lookup name with
  | none =>
    have hn : name ∉ scope := by rw [hs, hmem, hk]; exact Bool.false_ne_true
    rw [if_neg hn, run_stop]
    unfold found
    dsimp only
    rw [fail_bind]
    exact agrees_fail _ _ _
  | some k =>
    have hn : name ∈ scope := by rw [hs, hmem, hk]; rfl
    rw [if_pos hn, run_command engine h (hc k hk)]
    unfold found
    have hcommand : Agrees (fun _ h' => h' = h) (engine.command (c' k) >>= pure)
        (engine.command (c' k) >>= fun _ => run engine [] h) :=
      (agrees_refl _).bind fun _ _ _ => agrees_pure rfl
    rwa [bind_pure, ← pure_bind k fun k => engine.command (c' k)] at hcommand

/-- The same for a list, each of whose members names what a command of its own is about. -/
theorem agrees_referAll {table : List (String × κ)} {scope : List String}
    (hs : ∀ name, name ∈ scope ↔ name ∈ table.map Prod.fst) (as : List α) (nameOf : α → String)
    (e : Nat → String → Error) {h : Handles ι β π} {c : α → Command String String Unit ε}
    (c' : α → κ → Command ι β π ε)
    (hc : ∀ a k, table.lookup (nameOf a) = some k → h.resolve? (c a) = some (c' a k)) :
    Agrees (fun _ h' => h' = h)
      (forEach (fun i a _ => found (table.lookup (nameOf a)) (e i (nameOf a)) >>= fun k =>
        engine.command (c' a k)) 0 as ())
      (run engine (as.mapIdx fun i a =>
        refer scope (nameOf a) (e i (nameOf a)) (c a)).flatten h) := by
  rw [run_flatten_mapIdx]
  refine Agrees.forEach (fun _ _ h' => h' = h) ?_ as rfl
  rintro done a _ _ rfl
  exact agrees_refer hs (nameOf a) _ (c' a) (hc a)

variable {scope : Scope} {known : Known ι β} {pass : π} {h : Handles ι β π}

theorem agrees_useOnce (hs : Covers scope known) (hh : Inside known pass h) (mode : UseMode)
    (p : Path) (u : Use) (n : UInt32) :
    Agrees (fun _ h' => h' = h) (useOnce engine known pass mode p u n)
      (run engine (ofUseAt scope mode p u n) h) := by
  unfold useOnce ofUseAt
  cases u.access with
  | image access =>
    refine agrees_refer hs.images _ _ (fun k => .useImage mode pass k access (u.bindingAt n)) ?_
    intro k hk
    simp [Handles.resolve?, hh.pass, hh.follows.images, hk]
  | buffer access =>
    refine agrees_refer hs.buffers _ _ (fun k => .useBuffer mode pass k access (u.bindingAt n)) ?_
    intro k hk
    simp [Handles.resolve?, hh.pass, hh.follows.buffers, hk]

theorem agrees_useAll (hs : Covers scope known) (hh : Inside known pass h) (mode : UseMode)
    (p : Path) (u : Use) (n : UInt32) :
    Agrees (fun _ h' => h' = h) (useAll engine frame known pass mode p u n)
      (run engine (ofUse frame scope mode p n u) h) := by
  unfold useAll ofUse
  cases u.repetition with
  | once => exact agrees_useOnce hs hh mode p u n
  | counted source =>
    dsimp only
    rw [run_iterations]
    refine Agrees.iterate (fun _ _ h' => h' = h) ?_ _ rfl
    rintro i _ _ rfl
    exact agrees_useOnce hs hh mode p u _

theorem agrees_useList (hs : Covers scope known) (hh : Inside known pass h) (mode : UseMode)
    (p : Path) (uses : List Use) (n : UInt32) :
    Agrees (fun _ h' => h' = h) (useList engine frame known pass mode p uses n)
      (run engine (ofUses frame scope mode p n uses) h) := by
  unfold useList ofUses
  rw [run_flatten_mapIdx]
  refine Agrees.forEach (fun _ _ h' => h' = h) ?_ uses rfl
  rintro done u _ _ rfl
  exact agrees_useAll hs hh mode _ u n

theorem agrees_attach (hs : Covers scope known) (hh : Inside known pass h) (p : Path)
    (a : Attachments) (n : UInt32) :
    Agrees (fun _ h' => h' = h) (attach engine known pass p a n)
      (run engine (ofAttachments scope p a n) h) := by
  unfold attach ofAttachments
  rw [run_append]
  refine (agrees_referAll hs.images a.colors (fun color => Template.expand color.image n) _
    (fun color k => .addColor pass k (color.describe .color n)) ?_).bind ?_
  · intro color k hk
    simp [Handles.resolve?, hh.pass, hh.follows.images, hk]
  · rintro _ _ rfl
    cases a.depth with
    | none => exact agrees_pure rfl
    | some d =>
      rw [Option.toList_some, List.flatMap_singleton]
      refine agrees_refer hs.images _ _
        (fun k => .setDepth pass k (d.attachment.describe .depthStencil n) d.readOnly) ?_
      intro k hk
      simp [Handles.resolve?, hh.pass, hh.follows.images, hk]

/-- The rest of a pass once it is added and its domain is set. -/
theorem agrees_afterDomain (hs : Covers scope known) (hh : Inside known pass h) (position : Nat)
    (d : Pass) (executor : ε) (n : UInt32) (stats : Stats) :
    Agrees (fun s h' => Follows known h' ∧ s = stats)
      (do
        engine.command (.setExecutor pass executor)
        attach engine known pass (passPath position) d.attachments n
        useList engine frame known pass .read (passPath position) d.reads n
        useList engine frame known pass .write (passPath position) d.writes n
        trace (declaredPass (d.request n) d.execute)
        return stats)
      (run engine
        (.command (.setExecutor () executor) ::
          (ofAttachments scope (passPath position) d.attachments n ++
            (ofUses frame scope .read (passPath position) n d.reads ++
              (ofUses frame scope .write (passPath position) n d.writes ++
                [.note .trace (declaredPass (d.request n) d.execute)])))) h) := by
  have hexecutor : h.resolve? (.setExecutor () executor) = some (.setExecutor pass executor) := by
    simp [Handles.resolve?, hh.pass]
  rw [run_command engine h hexecutor]
  refine (agrees_refl _).bind fun _ _ _ => ?_
  rw [run_append]
  refine (agrees_attach hs hh _ _ n).bind ?_
  rintro _ _ rfl
  rw [run_append]
  refine (agrees_useList hs hh .read _ _ n).bind ?_
  rintro _ _ rfl
  rw [run_append]
  refine (agrees_useList hs hh .write _ _ n).bind ?_
  rintro _ _ rfl
  rw [run_note]
  exact (agrees_refl _).bind fun _ _ _ => agrees_pure ⟨hh.follows, rfl⟩

theorem agrees_instantiatePass (hs : Covers scope known) (hh : Follows known h)
    (executors : String → Option ε) (position : Nat) (d : Pass) (n : UInt32) (stats : Stats) :
    Agrees (fun s h' => Follows known h' ∧ s = { stats with passes := stats.passes.next })
      (instantiatePass engine frame executors known position d n stats)
      (run engine (ofPassAt frame executors scope position d n) h) := by
  unfold instantiatePass ofPassAt
  cases executors d.execute with
  | none =>
    unfold found
    dsimp only
    rw [fail_bind, run_stop]
    exact agrees_fail _ _ _
  | some executor =>
    unfold found
    simp only [pure_bind, List.append_assoc, List.cons_append, List.nil_append]
    rw [run_pass]
    refine (agrees_refl _).bind ?_
    rintro pass _ rfl
    have hin : Inside known pass { h with pass := some pass } := ⟨⟨hh.images, hh.buffers⟩, rfl⟩
    have hflags : ({ h with pass := some pass } : Handles ι β π).resolve?
        (.setFlags () d.flags : Command String String Unit ε) = some (.setFlags pass d.flags) := rfl
    rw [run_command engine _ hflags]
    refine (agrees_refl _).bind fun _ _ _ => ?_
    cases d.work.domain? with
    | none => exact agrees_afterDomain hs hin position d executor n _
    | some domain =>
      have hdomain : ({ h with pass := some pass } : Handles ι β π).resolve?
          (.setDomain () domain : Command String String Unit ε) = some (.setDomain pass domain) := rfl
      rw [Option.toList_some, List.map_singleton, List.singleton_append,
        run_command engine _ hdomain]
      exact (agrees_refl _).bind fun _ _ _ =>
        agrees_afterDomain hs hin position d executor n _

theorem agrees_declarePass (hs : Covers scope known) (hh : Follows known h)
    (executors : String → Option ε) (position : Nat) (d : Pass) (stats : Stats) :
    Agrees
      (fun s h' => Follows known h' ∧ s =
        { stats with
          passes := stats.passes.plus (frame.iterations d.condition d.repetition).length
          skippedPasses :=
            stats.skippedPasses.plus ([d].countP fun d : Pass => !frame.admits d.condition) })
      (declarePass engine frame executors known position d stats)
      (run engine (ofPass frame executors scope position d) h) := by
  unfold declarePass ofPass Frame.iterations
  by_cases ha : frame.admits d.condition = true
  · have hc : ([d].countP fun d : Pass => !frame.admits d.condition) = 0 := by simp [ha]
    have hlen : (iterations (frame.instances d.repetition)).length =
        (frame.instances d.repetition).toNat := by simp [iterations]
    rw [if_pos ha, if_pos ha, if_pos ha, hc, hlen, run_iterations]
    rw [Counter.plus_zero]
    refine Agrees.iterate
      (fun k s h' => Follows known h' ∧ s = { stats with passes := stats.passes.plus k }) ?_ _ ?_
    · rintro k _ h' ⟨hf, rfl⟩
      rw [← Counter.next_plus]
      exact agrees_instantiatePass hs hf executors position d _ _
    · exact ⟨hh, by rw [Counter.plus_zero]⟩
  · have hc : ([d].countP fun d : Pass => !frame.admits d.condition) = 1 := by simp [ha]
    rw [if_neg ha, if_neg ha, if_neg ha, hc, run_note]
    rw [List.length_nil, Counter.plus_zero]
    exact (agrees_refl _).bind fun _ _ _ => agrees_pure ⟨hh, rfl⟩

theorem agrees_declarePasses (hs : Covers scope known) (hh : Follows known h)
    (executors : String → Option ε) (ds : List Pass) (stats : Stats) :
    Agrees
      (fun s h' => Follows known h' ∧ s =
        { stats with
          passes := stats.passes.plus
            (ds.flatMap fun d : Pass => frame.iterations d.condition d.repetition).length
          skippedPasses :=
            stats.skippedPasses.plus (ds.countP fun d : Pass => !frame.admits d.condition) })
      (forEach (declarePass engine frame executors known) 0 ds stats)
      (run engine (ds.mapIdx (ofPass frame executors scope)).flatten h) := by
  rw [run_flatten_mapIdx]
  refine Agrees.forEach (fun done s h' => Follows known h' ∧ s =
    { stats with
      passes := stats.passes.plus
        (done.flatMap fun d : Pass => frame.iterations d.condition d.repetition).length
      skippedPasses :=
        stats.skippedPasses.plus (done.countP fun d : Pass => !frame.admits d.condition) })
    ?_ ds ?_
  · rintro done d _ h' ⟨hf, rfl⟩
    rw [List.flatMap_append, List.flatMap_singleton, List.length_append, List.countP_append,
      ← Counter.plus_plus, ← Counter.plus_plus]
    exact agrees_declarePass hs hf executors done.length d _
  · exact ⟨hh, by simp⟩

theorem agrees_declareOutputs (hs : Covers scope known) (hh : Follows known h) (o : Outputs) :
    Agrees (fun _ h' => h' = h) (declareOutputs engine known o)
      (run engine (ofOutputs scope o) h) := by
  unfold ofOutputs
  rw [List.append_assoc, run_append]
  have hexports : Agrees (fun _ h' => h' = h)
      (forEach (fun i name _ => do
          let image ← known.image (exportImagePath i) name
          engine.command (.exportImage image)) 0 o.exportImages () >>= fun _ =>
        forEach (fun i name _ => do
          let buffer ← known.buffer (exportBufferPath i) name
          engine.command (.exportBuffer buffer)) 0 o.exportBuffers ())
      (run engine ((o.exportImages.mapIdx fun i name =>
          refer scope.images name (absentImage (exportImagePath i) name)
            (.exportImage name)).flatten ++
        (o.exportBuffers.mapIdx fun i name =>
          refer scope.buffers name (absentBuffer (exportBufferPath i) name)
            (.exportBuffer name)).flatten) h) := by
    rw [run_append]
    refine (agrees_referAll hs.images o.exportImages (fun name => name) _ (fun _ => .exportImage)
      ?_).bind ?_
    · intro name k hk
      simp [Handles.resolve?, hh.images, hk]
    · rintro _ _ rfl
      refine agrees_referAll hs.buffers o.exportBuffers (fun name => name) _ (fun _ => .exportBuffer) ?_
      intro name k hk
      simp [Handles.resolve?, hh.buffers, hk]
  unfold declareOutputs
  cases o.present with
  | none => exact hexports
  | some name =>
    dsimp only
    rw [Option.toList_some, List.flatMap_singleton, ← bind_assoc]
    refine (agrees_refer hs.images name _ (fun k => .setPresent k) ?_).bind ?_
    · intro k hk
      simp [Handles.resolve?, hh.images, hk]
    · rintro _ _ rfl
      exact hexports

theorem Declared.covers {images : List ImageRequest} {buffers : List BufferRequest} {skipped : Nat}
    {b : Known ι β × Stats} {h : Handles ι β π} (hd : Declared images buffers skipped b h) :
    Covers ⟨images.map (·.name), buffers.map (·.name)⟩ b.1 := by
  constructor
  · intro name
    rw [hd.imageNames, List.mem_reverse]
  · intro name
    rw [hd.bufferNames, List.mem_reverse]

end Plan

namespace Graph

open FrameGraph.Action Plan

variable {σ ι β π ε : Type} (engine : Engine σ ι β π ε) (frame : Frame)
  (executors : String → Option ε) (g : Graph)

/-- What a build declares before the outputs: all resources, then all passes. -/
def declare : Action σ (Build.Known ι β × Stats) := do
  let (known, stats) ← forEach (Build.declareResource engine frame) 0 g.resources ({}, {})
  let stats ← forEach (Build.declarePass engine frame executors known) 0 g.passes stats
  return (known, stats)

theorem build_eq_declare :
    g.build engine frame executors = g.declare engine frame executors >>= fun (known, stats) => do
      Build.declareOutputs engine known g.outputs
      Action.note Build.origin .debug (Build.finished g.name stats)
      return stats := by
  simp [build, declare, bind_assoc]

/-- The steps of a plan before the outputs. -/
def declarations : Plan ε :=
  let scope : Scope :=
    ⟨(g.imageRequests frame).map (·.name), (g.bufferRequests frame).map (·.name)⟩
  (g.resources.mapIdx (ofResource frame)).flatten ++
    (g.passes.mapIdx (ofPass frame executors scope)).flatten

/-- The steps of a plan from the outputs on. -/
def closing : Plan ε :=
  let scope : Scope :=
    ⟨(g.imageRequests frame).map (·.name), (g.bufferRequests frame).map (·.name)⟩
  ofOutputs scope g.outputs ++ [.note .debug (Build.finished g.name (g.stats frame))]

theorem plan_eq_declarations :
    g.plan frame executors = g.declarations frame executors ++ g.closing frame := by
  simp [plan, declarations, closing]

/-- The resources and passes and the run of their steps agree. -/
theorem declare_agrees_run :
    Agrees (fun x h => Covers
          ⟨(g.imageRequests frame).map (·.name), (g.bufferRequests frame).map (·.name)⟩ x.1 ∧
        Plan.Follows x.1 h ∧ x.2 = g.stats frame)
      (g.declare engine frame executors) (run engine (g.declarations frame executors) {}) := by
  unfold declare declarations
  dsimp only
  rw [run_append]
  refine (agrees_declareResources g.resources).bind ?_
  rintro ⟨known, stats⟩ h hd
  have hs := hd.covers
  obtain ⟨hf, -, -, rfl⟩ := hd
  dsimp only
  rw [← bind_pure (run engine _ h)]
  refine (agrees_declarePasses hs hf executors g.passes _).bind ?_
  rintro _ h' ⟨hf', rfl⟩
  rw [← length_passRequests_eq, ← imageRequests_eq, ← bufferRequests_eq]
  exact agrees_pure ⟨hs, hf', rfl⟩

/-- A build and the run of its plan agree, and the build counts what the plan declares. -/
theorem build_agrees_run :
    Agrees (fun s _ => s = g.stats frame) (g.build engine frame executors)
      (run engine (g.plan frame executors) {}) := by
  rw [build_eq_declare, plan_eq_declarations, run_append]
  refine (declare_agrees_run engine frame executors g).bind ?_
  rintro ⟨known, _⟩ h ⟨hs, hf, rfl⟩
  unfold closing
  dsimp only
  rw [run_append]
  refine (agrees_declareOutputs hs hf g.outputs).bind ?_
  rintro _ _ rfl
  rw [run_note]
  exact (agrees_refl _).bind fun _ _ _ => agrees_pure rfl

end Graph

end FrameGraph
