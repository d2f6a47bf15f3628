import FrameGraph.Proofs.Plan.Tally
import FrameGraph.Proofs.Recording.Build

namespace FrameGraph

variable {σ ι β π ε : Type}

namespace Graph

variable {g : Graph} {frame : Frame} {executors : String → Option ε}

/-- There are fewer instances of each kind, and fewer declarations, than words can count. -/
structure Countable (g : Graph) (frame : Frame) : Prop where
  images : g.resourceInstances frame .image < UInt32.size
  buffers : g.resourceInstances frame .buffer < UInt32.size
  passes : g.passInstances frame < UInt32.size
  resources : g.resources.length < UInt32.size
  passDeclarations : g.passes.length < UInt32.size

/-- A declaration that is admitted and repeated zero times counts for nothing. -/
theorem stats_eq_of_idle_resource {before rest : List Resource} {r : Resource}
    (hg : g.resources = before ++ r :: rest) (ha : frame.admits r.condition = true)
    (hn : frame.instances r.repetition = 0) :
    ({ g with resources := before ++ rest } : Graph).stats frame = g.stats frame := by
  have hnone : frame.iterations r.condition r.repetition = [] := by
    rw [← List.length_eq_zero_iff, length_iterations, if_pos ha, hn]
    rfl
  unfold stats
  rw [imageRequests_eq, imageRequests_eq, bufferRequests_eq, bufferRequests_eq, hg]
  simp [passRequests, hnone, ha, Resource.imagesAt_nil, Resource.buffersAt_nil, List.flatMap_append]

theorem stats_eq_of_idle_pass {before rest : List Pass} {d : Pass}
    (hg : g.passes = before ++ d :: rest) (ha : frame.admits d.condition = true)
    (hn : frame.instances d.repetition = 0) :
    ({ g with passes := before ++ rest } : Graph).stats frame = g.stats frame := by
  have hnone : frame.iterations d.condition d.repetition = [] := by
    rw [← List.length_eq_zero_iff, length_iterations, if_pos ha, hn]
    rfl
  unfold stats passRequests
  rw [hg]
  simp [imageRequests, bufferRequests, hnone, ha, List.flatMap_append]

/-- What the counts of a build are: those of the requests it made, and those of the graph. -/
structure Exact (g : Graph) (frame : Frame) (stats : Stats) (tally : Tally) : Prop where
  imagesRequested : stats.images.Counts (tally.created + tally.imported)
  buffersRequested : stats.buffers.Counts tally.buffers
  passesRequested : stats.passes.Counts tally.passes
  images : stats.images.Counts (g.resourceInstances frame .image)
  buffers : stats.buffers.Counts (g.resourceInstances frame .buffer)
  passes : stats.passes.Counts (g.passInstances frame)
  skippedResources :
    stats.skippedResources.Counts (g.resources.countP fun r => !frame.admits r.condition)
  skippedPasses : stats.skippedPasses.Counts (g.passes.countP fun d => !frame.admits d.condition)

theorem exact_stats {tally : Tally} (hg : g.Countable frame)
    (hi : tally.created + tally.imported = (g.imageRequests frame).length)
    (hb : tally.buffers = (g.bufferRequests frame).length)
    (hp : tally.passes = (g.passRequests frame).length) : g.Exact frame (g.stats frame) tally := by
  have himages : (g.stats frame).images.Counts (g.imageRequests frame).length :=
    Counter.counts_ofNat (by rw [length_imageRequests]; exact hg.images)
  have hbuffers : (g.stats frame).buffers.Counts (g.bufferRequests frame).length :=
    Counter.counts_ofNat (by rw [length_bufferRequests]; exact hg.buffers)
  have hpasses : (g.stats frame).passes.Counts (g.passRequests frame).length :=
    Counter.counts_ofNat (by rw [length_passRequests]; exact hg.passes)
  exact
    { imagesRequested := by rwa [hi]
      buffersRequested := by rwa [hb]
      passesRequested := by rwa [hp]
      images := by rwa [← length_imageRequests]
      buffers := by rwa [← length_bufferRequests]
      passes := by rwa [← length_passRequests]
      skippedResources :=
        Counter.counts_ofNat (Nat.lt_of_le_of_lt List.countP_le_length hg.resources)
      skippedPasses :=
        Counter.counts_ofNat (Nat.lt_of_le_of_lt List.countP_le_length hg.passDeclarations) }

/-- The counts of a build that succeeds are exact, none of its counters overflows on the way, and
declarations repeated zero times make no difference to them. -/
theorem build_counts_exactly (engine : Engine σ ι β π ε) (g : Graph) (frame : Frame)
    (executors : String → Option ε) (s : σ) {stats : Stats}
    (hok : (g.build engine frame executors s).result = .ok stats) (hg : g.Countable frame) :
    (∃ tally, g.build engine.tallied frame executors (s, {}) =
        (g.build engine frame executors s).withTally tally ∧ g.Exact frame stats tally) ∧
    (∀ before r rest, g.resources = before ++ r :: rest → frame.admits r.condition = true →
      frame.instances r.repetition = 0 → ∀ s' stats',
      (({ g with resources := before ++ rest } : Graph).build engine frame executors s').result =
        .ok stats' → stats' = stats) ∧
    (∀ before d rest, g.passes = before ++ d :: rest → frame.admits d.condition = true →
      frame.instances d.repetition = 0 → ∀ s' stats',
      (({ g with passes := before ++ rest } : Graph).build engine frame executors s').result =
        .ok stats' → stats' = stats) := by
  have hstats {g' : Graph} {s' : σ} {stats' : Stats}
      (hok' : (g'.build engine frame executors s').result = .ok stats') :
      stats' = g'.stats frame := by
    obtain ⟨_, -, hcounts⟩ := g'.build_tallied engine frame executors s'
    exact (hcounts stats' hok').1
  obtain ⟨tally, hbuild, hcounts⟩ := g.build_tallied engine frame executors s
  obtain ⟨rfl, hi, hb, hp⟩ := hcounts stats hok
  refine ⟨⟨tally, hbuild, exact_stats hg hi hb hp⟩, ?_, ?_⟩
  · intro before r rest hsplit ha hn s' stats' hok'
    exact (hstats hok').trans (stats_eq_of_idle_resource hsplit ha hn)
  · intro before d rest hsplit ha hn s' stats' hok'
    exact (hstats hok').trans (stats_eq_of_idle_pass hsplit ha hn)

/-- The cascades with an overlay for the editor. -/
def cascadesWithOverlay : Graph :=
  { cascades with
    resources :=
      { name := "overlay", condition := .editorEnabled, repetition := .once, flags := .empty
        body := .image
          { importName := none, extent := .viewport, layers := .fixed 1, format := .swapchain
            usage := .empty } } :: cascades.resources
    passes := cascades.passes ++
      [{ name := "overlay", work := .compute, flags := .empty, condition := .editorEnabled
         repetition := .once, reads := []
         writes :=
          [{ name := "overlay", access := .image .storageWrite, repetition := .once, binding := none
             arrayIndex := none }]
         attachments := .none, execute := "overlay" }]
    resourceNames := .positions ["overlay", "cascade${i}", "lights", "screen"]
    passNames := .positions ["shadow${i}", "show", "overlay"] }

theorem cascadesWithOverlay_counts :
    (cascadesWithOverlay.build Recording.engine { shadowCascadeCount := 2 } some {}).result =
      .ok ⟨3, 1, 3, 1, 1⟩ ∧
    cascadesWithOverlay.Countable { shadowCascadeCount := 2 } ∧
    ∃ tally, cascadesWithOverlay.Exact { shadowCascadeCount := 2 } ⟨3, 1, 3, 1, 1⟩ tally := by
  have hok : (cascadesWithOverlay.build Recording.engine { shadowCascadeCount := 2 } some {}).result =
      .ok ⟨3, 1, 3, 1, 1⟩ := by decide +kernel
  have hg : cascadesWithOverlay.Countable { shadowCascadeCount := 2 } := by
    constructor <;> decide +kernel
  obtain ⟨⟨tally, -, hexact⟩, -⟩ := build_counts_exactly Recording.engine cascadesWithOverlay
    { shadowCascadeCount := 2 } some {} hok hg
  exact ⟨hok, hg, tally, hexact⟩

end Graph

end FrameGraph
