import FrameGraph.Proofs.Recording.Room
import FrameGraph.Proofs.Table

namespace FrameGraph

namespace Graph

open Plan Recording

variable {ε : Type} {g : Graph} {frame : Frame} {executors : String → Option ε}

/-- A build on a recording succeeds exactly if its plan stops nowhere and there is room for the graph. -/
theorem build_isOk_iff (s : Recording ε) :
    (∃ stats, (g.build engine frame executors s).result = .ok stats) ↔
      Stopless (g.plan frame executors) ∧ Room s (g.account frame executors) := by
  have hbuild := congrFun (g.build_agrees_run engine frame executors).eq_map s
  rw [Action.map_apply] at hbuild
  have hrun := run_succeeds_iff s (g.closed_plan frame executors)
  constructor
  · intro h
    obtain ⟨stats, hok⟩ := h
    rw [hbuild] at hok
    cases hresult : (run engine (g.plan frame executors) {} s).result with
    | error e =>
      rw [hresult] at hok
      exact absurd hok nofun
    | ok h =>
      obtain ⟨hs, hroom⟩ := hrun.1 ⟨h, hresult⟩
      exact ⟨hs, g.after_plan frame executors hs ▸ hroom⟩
  · intro h
    obtain ⟨hs, hroom⟩ := h
    rw [← g.after_plan frame executors hs] at hroom
    obtain ⟨h, hok⟩ := hrun.2 ⟨hs, hroom⟩
    exact ⟨g.stats frame, by rw [hbuild, hok]; rfl⟩

/-- A build that succeeds extends the recording by the graph as the frame has it. -/
theorem extends_of_build {s : Recording ε} {stats : Stats}
    (h : (g.build engine frame executors s).result = .ok stats) :
    Extends s (g.account frame executors) (g.build engine frame executors s).state := by
  rw [(g.build_agrees_run engine frame executors).eq_map, Action.map_apply] at h ⊢
  obtain ⟨r, log, h', hrun, hs, -, hr⟩ | ⟨r, log, e, h', p₁, x, p₂, hrun, -⟩ :=
    (records_empty s).run (room_empty s) (g.closed_plan frame executors)
  · rw [hrun]
    exact g.after_plan frame executors hs ▸ hr.content
  · rw [hrun] at h
    exact absurd h nofun

/-- The recording holds the graph as the frame has it and nothing else, and each key in it is the key of
the image or buffer that is named where the key stands. -/
structure Recorded (g : Graph) (frame : Frame) (executors : String → Option ε) (r : Recording ε) :
    Prop where
  images : r.images = g.resources.flatMap fun d =>
    match d.body with
    | .image i => (frame.iterations d.condition d.repetition).map fun n =>
      { name := Template.expand d.name n
        source := i.importName.map fun name => ⟨name, .present⟩
        description :=
          { size := frame.extent i.extent
            layers := frame.layers i.layers
            format := frame.format i.format
            usage := i.usage
            flags := d.flags } }
    | .buffer _ => []
  buffers : r.buffers = g.resources.flatMap fun d =>
    match d.body with
    | .image _ => []
    | .buffer b => (frame.iterations d.condition d.repetition).map fun n =>
      { name := Template.expand d.name n
        description := { size := b.size, usage := b.usage, flags := d.flags } }
  passes : List.Forall₂ (PassRecord.Shows r) r.passes (g.passes.flatMap fun d =>
    (frame.iterations d.condition d.repetition).map (d.account frame executors))
  present : List.Forall₂ (fun k name => r.imageName? k = some name) r.present.toList
    g.outputs.present.toList
  exportedImages : List.Forall₂ (fun k name => r.imageName? k = some name) r.exportedImages
    g.outputs.exportImages
  exportedBuffers : List.Forall₂ (fun k name => r.bufferName? k = some name) r.exportedBuffers
    g.outputs.exportBuffers
  imageKeys : ∀ k name, r.imageName? k = some name ↔ r.imageKey? name = some k
  bufferKeys : ∀ k name, r.bufferName? k = some name ↔ r.bufferKey? name = some k

/-- A build on an empty recording that succeeds records the graph, whatever keys the recording gives
out. -/
theorem recorded_of_build {images : Allotment ImageRequest} {buffers : Allotment BufferRequest}
    {passes : Allotment PassRequest} {stats : Stats}
    (h : (g.build engine frame executors (empty images buffers passes)).result = .ok stats) :
    g.Recorded frame executors
      (g.build engine frame executors (empty images buffers passes)).state := by
  have he := extends_of_build h
  have himages := he.imageStore.consistent (Store.consistent_empty _ _)
  have hbuffers := he.bufferStore.consistent (Store.consistent_empty _ _)
  exact
    { images := he.images
      buffers := he.buffers
      passes := he.passes.of_nil
      present := he.presented.of_nil
      exportedImages := he.exportedImages.of_nil
      exportedBuffers := he.exportedBuffers.of_nil
      imageKeys := fun k name => Option.map_eq_some_iff.trans (himages name k).symm
      bufferKeys := fun k name => Option.map_eq_some_iff.trans (hbuffers name k).symm }

/-- One map for each shadow cascade, drawn with the lights, and a pass that shows them all on the
screen. -/
def cascades : Graph where
  version := currentVersion
  name := "cascades"
  resources :=
    [{ name := "cascade${i}", condition := .always, repetition := .counted .shadowCascadeCount
       flags := .empty
       body := .image
        { importName := none, extent := .square .shadowMapSize, layers := .fixed 1
          format := .shadowDepth, usage := .empty } },
     { name := "lights", condition := .always, repetition := .once, flags := .empty
       body := .buffer { size := 64, usage := .empty } },
     { name := "screen", condition := .always, repetition := .once, flags := .empty
       body := .image
        { importName := some "swapchain", extent := .window, layers := .fixed 1
          format := .swapchain, usage := .empty } }]
  passes :=
    [{ name := "shadow${i}", work := .graphics .shadow, flags := .empty, condition := .always
       repetition := .counted .shadowCascadeCount
       reads :=
        [{ name := "lights", access := .buffer .uniform, repetition := .once
           binding := some (.literal 0), arrayIndex := some .iteration }]
       writes := []
       attachments :=
        { colors := []
          depth := some
            { attachment :=
                { image := "cascade${i}", load := .clear, store := .store, clear := none
                  slice := none }
              readOnly := false } }
       execute := "draw" },
     { name := "show", work := .compute, flags := .empty, condition := .always, repetition := .once
       reads :=
        [{ name := "cascade${i}", access := .image .sampled
           repetition := .counted .shadowCascadeCount, binding := some .iteration
           arrayIndex := none }]
       writes :=
        [{ name := "screen", access := .image .storageWrite, repetition := .once, binding := none
           arrayIndex := none }]
       attachments := .none
       execute := "show" }]
  outputs :=
    { present := some "screen", exportImages := ["cascade1"], exportBuffers := ["lights"] }
  resourceNames := .positions ["cascade${i}", "lights", "screen"]
  passNames := .positions ["shadow${i}", "show"]

theorem recorded_cascades :
    (cascades.build engine { shadowCascadeCount := 2 } some {}).result = .ok ⟨3, 1, 3, 0, 0⟩ ∧
    cascades.Recorded { shadowCascadeCount := 2 } some
      (cascades.build engine { shadowCascadeCount := 2 } some {}).state := by
  have h : (cascades.build engine { shadowCascadeCount := 2 } some {}).result =
      .ok ⟨3, 1, 3, 0, 0⟩ := by decide +kernel
  exact ⟨h, recorded_of_build h⟩

/-- The names of the passes of the graph in a frame. -/
def passNamesIn (g : Graph) (frame : Frame) : List String := (g.passRequests frame).map (·.name)

theorem passNames_account :
    (g.account frame executors).passNames = g.passNamesIn frame := by
  unfold Account.passNames passNamesIn account passAccounts passRequests
  simp only [List.map_flatMap, List.map_map]
  rfl

/-- All that a build on a recording needs in order to succeed. -/
structure Buildable (g : Graph) (frame : Frame) (executors : String → Option ε) (s : Recording ε) :
    Prop where
  layers : ∀ r ∈ g.resources, ∀ i, r.body = .image i →
    frame.iterations r.condition r.repetition ≠ [] → frame.layers i.layers ≠ 0
  executors : ∀ d ∈ g.passes, frame.iterations d.condition d.repetition ≠ [] →
    (executors d.execute).isSome = true
  imageNames : Apart s.imageStore.taken (g.scope frame).images
  bufferNames : Apart s.bufferStore.taken (g.scope frame).buffers
  passNames : Apart s.passStore.taken (g.passNamesIn frame)
  colors : ∀ d ∈ g.passes, ∀ n ∈ frame.iterations d.condition d.repetition,
    ∀ c ∈ d.attachments.colors, Template.expand c.image n ∈ (g.scope frame).images
  depth : ∀ d ∈ g.passes, ∀ n ∈ frame.iterations d.condition d.repetition,
    ∀ a ∈ d.attachments.depth, Template.expand a.attachment.image n ∈ (g.scope frame).images
  uses : ∀ d ∈ g.passes, ∀ n ∈ frame.iterations d.condition d.repetition,
    ∀ u ∈ d.reads ++ d.writes, ∀ m ∈ frame.useIterations n u.repetition,
      Template.expand u.name m ∈ (g.scope frame).names u.access.type
  present : ∀ name ∈ g.outputs.present, name ∈ (g.scope frame).images ∧ s.present = none
  exportImages : ∀ name ∈ g.outputs.exportImages, name ∈ (g.scope frame).images
  exportBuffers : ∀ name ∈ g.outputs.exportBuffers, name ∈ (g.scope frame).buffers

/-- An image to present has room if none is presented yet. -/
theorem room_present_iff (present : Option ImageKey) (name : Option String) :
    present.toList.length + name.toList.length ≤ 1 ↔ ∀ n ∈ name, present = none := by
  cases present <;> cases name <;> simp

theorem Buildable.stopless {s : Recording ε} (h : g.Buildable frame executors s) :
    Stopless (g.plan frame executors) := by
  refine (g.stopless_plan frame executors).2 ⟨?_, ?_, ?_, h.exportImages, h.exportBuffers⟩
  · intro r hr n hn i hi
    exact h.layers r hr i hi (List.ne_nil_of_mem hn)
  · intro d hd n hn
    have huses := h.uses d hd n hn
    exact ⟨h.executors d hd (List.ne_nil_of_mem hn), h.colors d hd n hn, h.depth d hd n hn,
      fun u hu => huses u (List.mem_append_left _ hu),
      fun u hu => huses u (List.mem_append_right _ hu)⟩
  · intro name hname
    exact (h.present name hname).1

theorem Buildable.room {s : Recording ε} (h : g.Buildable frame executors s) :
    Room s (g.account frame executors) where
  apart kind := by
    cases kind with
    | image => exact h.imageNames
    | buffer => exact h.bufferNames
    | pass =>
      show Apart s.passStore.taken (g.account frame executors).passNames
      rw [passNames_account]
      exact h.passNames
  presented := (room_present_iff _ _).2 fun name hname => (h.present name hname).2

theorem buildable_of_stopless {s : Recording ε} (hs : Stopless (g.plan frame executors))
    (hroom : Room s (g.account frame executors)) : g.Buildable frame executors s := by
  obtain ⟨hlayers, hprovided, hpresent, himages, hbuffers⟩ := (g.stopless_plan frame executors).1 hs
  have hnone := (room_present_iff _ _).1 hroom.presented
  have hpasses : Apart s.passStore.taken (g.account frame executors).passNames := hroom.apart .pass
  rw [passNames_account] at hpasses
  refine
    { layers := ?_
      executors := ?_
      imageNames := hroom.apart .image
      bufferNames := hroom.apart .buffer
      passNames := hpasses
      colors := fun d hd n hn => (hprovided d hd n hn).colors
      depth := fun d hd n hn => (hprovided d hd n hn).depth
      uses := ?_
      present := fun name hname => ⟨hpresent name hname, hnone name hname⟩
      exportImages := himages
      exportBuffers := hbuffers }
  · intro r hr i hi hne
    obtain ⟨n, hn⟩ := List.exists_mem_of_ne_nil _ hne
    exact hlayers r hr n hn i hi
  · intro d hd hne
    obtain ⟨n, hn⟩ := List.exists_mem_of_ne_nil _ hne
    exact (hprovided d hd n hn).executor
  · intro d hd n hn u hu
    rcases List.mem_append.1 hu with hread | hwrite
    · exact (hprovided d hd n hn).reads u hread
    · exact (hprovided d hd n hn).writes u hwrite

/-- A build on a recording succeeds exactly if it has all that it needs. -/
theorem build_succeeds_iff (g : Graph) (frame : Frame) (executors : String → Option ε)
    (s : Recording ε) :
    (∃ stats, (g.build engine frame executors s).result = .ok stats) ↔
      g.Buildable frame executors s := by
  rw [build_isOk_iff]
  constructor
  · intro h
    obtain ⟨hs, hroom⟩ := h
    exact buildable_of_stopless hs hroom
  · intro h
    exact ⟨h.stopless, h.room⟩

end Graph

end FrameGraph
