import FrameGraph.Engine.Recording
import FrameGraph.Proofs.Document.Writing
import FrameGraph.Proofs.Plan.Content
import FrameGraph.Proofs.Plan.Interpretation
import FrameGraph.Proofs.Template

namespace FrameGraph

open Build Plan Document

variable {frame : Frame}

/-- A name that a pass looks up: that of a template at an iteration. -/
structure Reference where
  type : ResourceType
  template : String
  iteration : UInt32

def Reference.name (ref : Reference) : String := Template.expand ref.template ref.iteration

def Use.references (u : Use) (frame : Frame) (n : UInt32) : List Reference :=
  (frame.useIterations n u.repetition).map fun m => ⟨u.access.type, u.name, m⟩

namespace Pass

/-- What one instance of the pass looks up. -/
def references (d : Pass) (frame : Frame) (n : UInt32) : List Reference :=
  d.attachments.colors.map (fun c => ⟨.image, c.image, n⟩) ++
    d.attachments.depth.toList.map (fun a => ⟨.image, a.attachment.image, n⟩) ++
    (d.reads ++ d.writes).flatMap fun u => u.references frame n

/-- The names of resources that stand in the declaration of the pass. -/
def templates (d : Pass) : List String :=
  d.attachments.colors.map (·.image) ++ d.attachments.depth.toList.map (·.attachment.image) ++
    (d.reads ++ d.writes).map (·.name)

/-- A reference is to an attachment, or to a use at one of its iterations. -/
theorem mem_references_iff {d : Pass} {n : UInt32} {ref : Reference} :
    ref ∈ d.references frame n ↔
      (∃ c ∈ d.attachments.colors, ref = ⟨.image, c.image, n⟩) ∨
      (∃ a ∈ d.attachments.depth, ref = ⟨.image, a.attachment.image, n⟩) ∨
      ∃ u ∈ d.reads ++ d.writes, ∃ m ∈ frame.useIterations n u.repetition,
        ref = ⟨u.access.type, u.name, m⟩ := by
  simp only [references, Use.references, List.mem_append, List.mem_map, List.mem_flatMap,
    Option.mem_toList, Option.mem_def, eq_comm (a := ref), or_assoc]

theorem template_mem {d : Pass} {n : UInt32} {ref : Reference} (h : ref ∈ d.references frame n) :
    ref.template ∈ d.templates := by
  unfold templates
  rcases mem_references_iff.1 h with ⟨c, hc, rfl⟩ | ⟨a, ha, rfl⟩ | ⟨u, hu, m, -, rfl⟩
  · exact List.mem_append_left _ (List.mem_append_left _ (List.mem_map_of_mem hc))
  · exact List.mem_append_left _ (List.mem_append_right _
      (List.mem_map.2 ⟨a, Option.mem_toList.2 ha, rfl⟩))
  · exact List.mem_append_right _ (List.mem_map_of_mem hu)

end Pass

/-- An instance of a pass has all that it needs if there is its executor, and what it refers to is in
scope. -/
theorem Plan.provided_iff {ε : Type} {executors : String → Option ε} {scope : Scope} {d : Pass}
    {n : UInt32} :
    Provided frame executors scope d n ↔
      (executors d.execute).isSome = true ∧
        ∀ ref ∈ d.references frame n, ref.name ∈ scope.names ref.type := by
  constructor
  · intro h
    refine ⟨h.executor, ?_⟩
    intro ref href
    rcases Pass.mem_references_iff.1 href with ⟨c, hc, rfl⟩ | ⟨a, ha, rfl⟩ | ⟨u, hu, m, hm, rfl⟩
    · exact h.colors c hc
    · exact h.depth a ha
    · rcases List.mem_append.1 hu with hread | hwrite
      · exact h.reads u hread m hm
      · exact h.writes u hwrite m hm
  · intro h
    obtain ⟨hexecutor, hscope⟩ := h
    have huse (u : Use) (hu : u ∈ d.reads ++ d.writes) : ∀ m ∈ frame.useIterations n u.repetition,
        Template.expand u.name m ∈ scope.names u.access.type := fun m hm =>
      hscope ⟨u.access.type, u.name, m⟩ (Pass.mem_references_iff.2 (.inr (.inr ⟨u, hu, m, hm, rfl⟩)))
    exact
      { executor := hexecutor
        colors := fun c hc => hscope ⟨.image, c.image, n⟩ (Pass.mem_references_iff.2 (.inl ⟨c, hc, rfl⟩))
        depth := fun a ha => hscope ⟨.image, a.attachment.image, n⟩
          (Pass.mem_references_iff.2 (.inr (.inl ⟨a, ha, rfl⟩)))
        reads := fun u hu => huse u (List.mem_append_left _ hu)
        writes := fun u hu => huse u (List.mem_append_right _ hu) }

section

variable {g : Graph}

/-- A reference of a pass is to the template of a declared resource of its type. -/
theorem LooseGraph.WellFormed.declared (h : g.loose.WellFormed) {d : Pass} (hd : d ∈ g.passes)
    {n : UInt32} {ref : Reference} (href : ref ∈ d.references frame n) :
    Document.Declared g.resources ref.type ref.template := by
  have hpass := h.passes d.loose (List.mem_map_of_mem hd)
  rcases Pass.mem_references_iff.1 href with ⟨c, hc, rfl⟩ | ⟨a, ha, rfl⟩ | ⟨u, hu, m, -, rfl⟩
  · exact (hpass.attachments _ (List.mem_append_left _ (List.mem_map_of_mem hc))).image
  · have hdepth : a.loose ∈ d.loose.depth := Option.mem_map_of_mem _ ha
    exact (hpass.attachments _ (List.mem_append_right _ (Option.mem_toList.2 hdepth))).image
  · exact hpass.uses u hu

/-- The names of resources are distinct. -/
theorem LooseGraph.WellFormed.eq_of_name (h : g.loose.WellFormed) {r r' : Resource}
    (hr : r ∈ g.resources) (hr' : r' ∈ g.resources) (hname : r.name = r'.name) : r = r' :=
  List.inj_on_of_nodup_map h.resourceNames hr hr' hname

end

theorem mem_iterations {m n : UInt32} : m ∈ iterations n ↔ m < n := by
  unfold iterations
  rw [List.mem_map, UInt32.lt_iff_toNat_lt]
  constructor
  · intro h
    obtain ⟨k, hk, rfl⟩ := h
    have hkn := List.mem_range.1 hk
    have hsize : k < UInt32.size := Nat.lt_trans hkn n.toNat_lt
    rwa [UInt32.toNat_ofNat_of_lt' hsize]
  · intro h
    exact ⟨m.toNat, List.mem_range.2 h, UInt32.ofNat_toNat⟩

/-- The resource is of the type and has an instance of the name in the frame. -/
def Resource.Provides (r : Resource) (frame : Frame) (type : ResourceType) (name : String) : Prop :=
  r.type = type ∧ ∃ m ∈ frame.iterations r.condition r.repetition, Template.expand r.name m = name

theorem Resource.mem_imageNames_iff {r : Resource} {name : String} :
    name ∈ (r.imagesAt frame (frame.iterations r.condition r.repetition)).map (·.name) ↔
      r.Provides frame .image name := by
  unfold imagesAt Provides type
  cases r.body <;> simp [ResourceBody.type, imageRequest]

theorem Resource.mem_bufferNames_iff {r : Resource} {name : String} :
    name ∈ (r.buffersAt (frame.iterations r.condition r.repetition)).map (·.name) ↔
      r.Provides frame .buffer name := by
  unfold buffersAt Provides type
  cases r.body <;> simp [ResourceBody.type, bufferRequest]

/-- The names in scope are those that a resource provides. -/
theorem Graph.mem_names_iff {g : Graph} {type : ResourceType} {name : String} :
    name ∈ (g.scope frame).names type ↔ ∃ r ∈ g.resources, r.Provides frame type name := by
  cases type with
  | image =>
    simp only [Scope.names, scope, g.imageRequests_eq, List.map_flatMap, List.mem_flatMap,
      Resource.mem_imageNames_iff]
  | buffer =>
    simp only [Scope.names, scope, g.bufferRequests_eq, List.map_flatMap, List.mem_flatMap,
      Resource.mem_bufferNames_iff]

/-- Each iteration of a declaration is one of the cascades, of which there is at least one. -/
theorem Frame.lt_of_mem_iterations (hcascades : 1 ≤ frame.shadowCascadeCount) {c : Condition}
    {repetition : Repetition} {n : UInt32} (hn : n ∈ frame.iterations c repetition) :
    n < frame.shadowCascadeCount := by
  unfold Frame.iterations at hn
  split at hn
  · have hlt := mem_iterations.1 hn
    cases repetition with
    | once => exact UInt32.lt_of_lt_of_le hlt hcascades
    | counted source => exact hlt
  · exact absurd hn List.not_mem_nil

theorem Pass.iteration_lt (hcascades : 1 ≤ frame.shadowCascadeCount) {d : Pass} {n : UInt32}
    (hn : n ∈ frame.iterations d.condition d.repetition) {ref : Reference}
    (href : ref ∈ d.references frame n) : ref.iteration < frame.shadowCascadeCount := by
  have hlt := Frame.lt_of_mem_iterations hcascades hn
  rcases mem_references_iff.1 href with ⟨c, -, rfl⟩ | ⟨a, -, rfl⟩ | ⟨u, -, m, hm, rfl⟩
  · exact hlt
  · exact hlt
  · unfold Frame.useIterations at hm
    cases hu : u.repetition with
    | once =>
      rw [hu] at hm
      exact List.mem_singleton.1 hm ▸ hlt
    | counted source =>
      rw [hu] at hm
      exact mem_iterations.1 hm

/-- An admitted declaration has a first iteration. -/
theorem Frame.zero_mem_iterations (hcascades : 1 ≤ frame.shadowCascadeCount) {c : Condition}
    (hc : frame.admits c = true) (repetition : Repetition) : 0 ∈ frame.iterations c repetition := by
  unfold Frame.iterations
  rw [if_pos hc, mem_iterations]
  cases repetition with
  | once => exact (by decide : (0 : UInt32) < 1)
  | counted source => exact UInt32.lt_of_lt_of_le (by decide : (0 : UInt32) < 1) hcascades

namespace Resource

variable {r : Resource} {type : ResourceType} {name : String}

theorem Provides.admits (h : r.Provides frame type name) : frame.admits r.condition = true := by
  obtain ⟨-, m, hm, -⟩ := h
  by_contra hno
  rw [Frame.iterations, if_neg hno] at hm
  exact List.not_mem_nil hm

/-- No instance has the token in its name. -/
theorem Provides.not_hasToken (h : r.Provides frame type name) : ¬Template.HasToken name := by
  obtain ⟨-, m, -, rfl⟩ := h
  exact Template.not_hasToken_expand r.name m

/-- A template without the token is the name of an instance. -/
theorem provides_name (hcascades : 1 ≤ frame.shadowCascadeCount)
    (hadmits : frame.admits r.condition = true) (htoken : ¬Template.HasToken r.name) :
    r.Provides frame r.type r.name :=
  ⟨rfl, 0, Frame.zero_mem_iterations hcascades hadmits _, Template.expand_of_not_hasToken htoken 0⟩

/-- The template of an admitted resource is, at every iteration, the name of an instance, if the resource
is repeated whenever the template holds the token. -/
theorem provides_expand (hcascades : 1 ≤ frame.shadowCascadeCount)
    (hadmits : frame.admits r.condition = true)
    (hrepeated : Template.HasToken r.name → r.repetition ≠ .once) {m : UInt32}
    (hm : m < frame.shadowCascadeCount) : r.Provides frame r.type (Template.expand r.name m) := by
  by_cases htoken : Template.HasToken r.name
  · refine ⟨rfl, m, ?_, rfl⟩
    unfold Frame.iterations
    rw [if_pos hadmits, mem_iterations]
    cases hr : r.repetition with
    | once => exact absurd hr (hrepeated htoken)
    | counted source => exact hm
  · rw [Template.expand_of_not_hasToken htoken]
    exact provides_name hcascades hadmits htoken

end Resource

section

variable {σ ι β π ε : Type}

/-- Looking the name up among the known resources of the type succeeds, wherever it stands. -/
def Build.Known.Finds (σ : Type) (known : Known ι β) : ResourceType → String → Prop
  | .image, name => ∃ i, ∀ p, known.image p name = (pure i : Action σ ι)
  | .buffer, name => ∃ b, ∀ p, known.buffer p name = (pure b : Action σ β)

/-- The build declares all resources of the graph, after which it knows those given. -/
def Graph.Materializes (g : Graph) (engine : Engine σ ι β π ε) (frame : Frame) (s : σ)
    (known : Known ι β) : Prop :=
  ∃ stats, (Action.forEach (declareResource engine frame) 0 g.resources ({}, {}) s).result =
    .ok (known, stats)

theorem Graph.Materializes.covers {g : Graph} {engine : Engine σ ι β π ε} {s : σ}
    {known : Known ι β} (h : g.Materializes engine frame s known) :
    Covers (g.scope frame) known := by
  obtain ⟨stats, hok⟩ := h
  have hagrees : Action.Agrees _ (Action.forEach (declareResource engine frame) 0 g.resources ({}, {}))
      (run engine (g.resources.mapIdx (ofResource frame)).flatten {}) :=
    agrees_declareResources g.resources
  -- the run of the plan ends as the build does, and what it declared is what is known
  obtain ⟨-, -, halike⟩ := hagrees s
  generalize (run engine (g.resources.mapIdx (ofResource frame)).flatten {} s).result = r at halike
  rw [hok] at halike
  cases halike with
  | ok hdeclared => exact hdeclared.covers

theorem found_eq_pure_iff {α : Type} (s : σ) (a : Option α) {e : Path → Error} :
    (∃ b, ∀ p, found a (e p) = (pure b : Action σ α)) ↔ a.isSome = true := by
  cases a with
  | some a => exact ⟨fun _ => rfl, fun _ => ⟨a, fun _ => rfl⟩⟩
  | none =>
    constructor
    · intro h
      obtain ⟨b, hb⟩ := h
      have hresult := congrArg Outcome.result (congrFun (hb []) s)
      exact absurd hresult nofun
    · intro h
      exact absurd h nofun

/-- After all resources a build finds exactly the names in scope. -/
theorem Graph.Materializes.finds_iff {g : Graph} {engine : Engine σ ι β π ε} {s : σ}
    {known : Known ι β} (h : g.Materializes engine frame s known) {type : ResourceType}
    {name : String} : known.Finds σ type name ↔ name ∈ (g.scope frame).names type := by
  have hcovers := h.covers
  cases type with
  | image =>
    show (∃ i, ∀ p, known.image p name = (pure i : Action σ ι)) ↔ name ∈ (g.scope frame).images
    rw [hcovers.images, mem_map_fst_iff_lookup]
    exact found_eq_pure_iff s _
  | buffer =>
    show (∃ b, ∀ p, known.buffer p name = (pure b : Action σ β)) ↔ name ∈ (g.scope frame).buffers
    rw [hcovers.buffers, mem_map_fst_iff_lookup]
    exact found_eq_pure_iff s _

end

/-- The frame admits every resource that the pass names, and the resource is repeated whenever its name
holds the token. -/
def Graph.Fits (g : Graph) (frame : Frame) (d : Pass) : Prop :=
  ∀ r ∈ g.resources, r.name ∈ d.templates →
    frame.admits r.condition = true ∧ (Template.HasToken r.name → r.repetition ≠ .once)

section

variable {document : Json} {g : Graph} {d : Pass}

theorem Graph.Fits.mem_names (h : g.Fits frame d) (hg : g.loose.WellFormed)
    (hcascades : 1 ≤ frame.shadowCascadeCount) (hd : d ∈ g.passes) {n : UInt32}
    (hn : n ∈ frame.iterations d.condition d.repetition) {ref : Reference}
    (href : ref ∈ d.references frame n) : ref.name ∈ (g.scope frame).names ref.type := by
  obtain ⟨r, hr, hname, htype⟩ := hg.declared hd href
  obtain ⟨hadmits, hrepeated⟩ := h r hr (hname ▸ Pass.template_mem href)
  have hprovides :=
    Resource.provides_expand hcascades hadmits hrepeated (Pass.iteration_lt hcascades hn href)
  rw [hname, htype] at hprovides
  exact Graph.mem_names_iff.2 ⟨r, hr, hprovides⟩

/-- A pass with all that it refers to in scope stops for want of an executor only. -/
theorem Plan.eq_noExecutor_of_stop {ε : Type} {executors : String → Option ε} {scope : Scope}
    (hscope : ∀ n ∈ frame.iterations d.condition d.repetition, ∀ ref ∈ d.references frame n,
      ref.name ∈ scope.names ref.type)
    {position : Nat} {e : Error} (he : .stop e ∈ ofPass frame executors scope position d) :
    ∃ n, e = noExecutor position d.execute (d.request n).name := by
  cases hexecutor : executors d.execute with
  | some executor =>
    -- with an executor too the plan of the pass has no stop at all
    have hstopless : Stopless (ofPass frame executors scope position d) :=
      (stopless_ofPass executors position d).2 fun n hn =>
        provided_iff.2 ⟨Option.isSome_iff_exists.2 ⟨executor, hexecutor⟩, hscope n hn⟩
    exact absurd (hstopless _ he) nofun
  | none =>
    unfold ofPass at he
    split at he
    · obtain ⟨n, -, hn⟩ := List.mem_flatMap.1 he
      rw [ofPassAt_of_none hexecutor, List.mem_singleton, PlanStep.stop.injEq] at hn
      exact ⟨n, hn⟩
    · exact absurd (List.mem_singleton.1 he) nofun

/-- A pass that fits the frame finds all that it refers to, so its plan stops for want of an executor
only. -/
theorem Graph.references_found (hload : Graph.ofDocument document = .ok g)
    (hcascades : 1 ≤ frame.shadowCascadeCount) (hd : d ∈ g.passes) (hfits : g.Fits frame d) :
    (∀ {σ ι β π ε : Type} (engine : Engine σ ι β π ε) (s : σ) (known : Known ι β),
      g.Materializes engine frame s known →
        ∀ n ∈ frame.iterations d.condition d.repetition, ∀ ref ∈ d.references frame n,
          known.Finds σ ref.type ref.name) ∧
      ∀ {ε : Type} (executors : String → Option ε) (position : Nat) (e : Error),
        .stop e ∈ ofPass frame executors (g.scope frame) position d →
          ∃ n, e = noExecutor position d.execute (d.request n).name := by
  have hg := Graph.wellFormed_of_ofDocument hload
  constructor
  · intro σ ι β π ε engine s known hknown n hn ref href
    exact hknown.finds_iff.2 (hfits.mem_names hg hcascades hd hn href)
  · intro ε executors position e he
    exact Plan.eq_noExecutor_of_stop (fun n hn ref href => hfits.mem_names hg hcascades hd hn href) he

/-- A pass that reads all maps. -/
def light : Pass where
  name := "light"
  work := .compute
  flags := .empty
  condition := .always
  repetition := .once
  reads :=
    [{ name := "map${i}", access := .image .sampled, repetition := .counted .shadowCascadeCount
       binding := none, arrayIndex := none }]
  writes := []
  attachments := .none
  execute := "light"

/-- One map for each cascade, drawn by as many passes and read by one. -/
def maps : Graph where
  version := 1
  name := "maps"
  resources :=
    [{ name := "map${i}", condition := .always, repetition := .counted .shadowCascadeCount
       flags := .empty
       body := .image
        { importName := none, extent := .square .shadowMapSize, layers := .fixed 1
          format := .shadowDepth, usage := .ofNat 1 } }]
  passes :=
    [{ name := "draw${i}", work := .graphics .shadow, flags := .empty, condition := .always
       repetition := .counted .shadowCascadeCount, reads := [], writes := []
       attachments :=
        { colors := []
          depth := some
            { attachment :=
                { image := "map${i}", load := .clear, store := .store, clear := none
                  slice := none }
              readOnly := false } }
       execute := "draw" },
     light]
  outputs := .none
  resourceNames := .positions ["map${i}"]
  passNames := .positions ["draw${i}", "light"]

theorem references_found_light :
    Graph.ofDocument maps.document = .ok maps ∧ 1 ≤ ({} : Frame).shadowCascadeCount ∧
    light ∈ maps.passes ∧ maps.Fits {} light ∧
    ∃ known, maps.Materializes Recording.engine {} ({} : Recording Unit) known ∧
      known.Finds (Recording Unit) .image "map3" := by
  have hload : Graph.ofDocument maps.document = .ok maps := by rfl
  have hcascades : 1 ≤ ({} : Frame).shadowCascadeCount := by decide
  have hmem : light ∈ maps.passes := List.mem_cons_of_mem _ (List.mem_singleton_self _)
  have hfits : maps.Fits {} light := by
    unfold Graph.Fits
    decide
  obtain ⟨known, hknown⟩ :
      ∃ known, maps.Materializes Recording.engine {} ({} : Recording Unit) known := ⟨_, _, rfl⟩
  have href : ⟨.image, "map${i}", 3⟩ ∈ light.references {} 0 := Pass.mem_references_iff.2
    (.inr (.inr ⟨_, List.mem_singleton_self _, 3, by decide, rfl⟩))
  have hname : Reference.name ⟨.image, "map${i}", 3⟩ = "map3" := by decide
  have hfound := (Graph.references_found hload hcascades hmem hfits).1 Recording.engine {} known hknown
    0 (by decide) _ href
  exact ⟨hload, hcascades, hmem, hfits, known, hknown, hname ▸ hfound⟩

end

section

variable {document : Json} {g : Graph}

/-- The template of a declared resource is in scope as it stands exactly if it holds no token. -/
theorem Graph.mem_names_of_declared_iff (hcascades : 1 ≤ frame.shadowCascadeCount)
    (hadmits : ∀ r ∈ g.resources, frame.admits r.condition = true) {type : ResourceType}
    {name : String} (h : Document.Declared g.resources type name) :
    name ∈ (g.scope frame).names type ↔ ¬Template.HasToken name := by
  rw [Graph.mem_names_iff]
  constructor
  · intro hscope
    obtain ⟨r, -, hprovides⟩ := hscope
    exact hprovides.not_hasToken
  · intro htoken
    obtain ⟨r, hr, rfl, rfl⟩ := h
    exact ⟨r, hr, Resource.provides_name hcascades (hadmits r hr) htoken⟩

/-- An output is looked up as it stands, so a build that admits all resources finds it exactly if it
holds no token. -/
theorem Graph.outputs_found_iff (hload : Graph.ofDocument document = .ok g)
    (hcascades : 1 ≤ frame.shadowCascadeCount)
    (hadmits : ∀ r ∈ g.resources, frame.admits r.condition = true) {σ ι β π ε : Type}
    {engine : Engine σ ι β π ε} {s : σ} {known : Known ι β}
    (hknown : g.Materializes engine frame s known) :
    (∀ name ∈ g.outputs.present, known.Finds σ .image name ↔ ¬Template.HasToken name) ∧
      (∀ name ∈ g.outputs.exportImages, known.Finds σ .image name ↔ ¬Template.HasToken name) ∧
      ∀ name ∈ g.outputs.exportBuffers, known.Finds σ .buffer name ↔ ¬Template.HasToken name := by
  have houtputs := (Graph.wellFormed_of_ofDocument hload).outputs
  have hiff {type : ResourceType} {name : String} (h : Document.Declared g.resources type name) :
      known.Finds σ type name ↔ ¬Template.HasToken name :=
    hknown.finds_iff.trans (Graph.mem_names_of_declared_iff hcascades hadmits h)
  exact ⟨fun name hname => hiff (houtputs.present name hname),
    fun name hname => hiff (houtputs.exportImages name hname),
    fun name hname => hiff (houtputs.exportBuffers name hname)⟩

/-- A graph that exports a resource whose only instance has another name than its template. -/
def exported : Graph where
  version := 1
  name := "exported"
  resources :=
    [{ name := "screen", condition := .always, repetition := .once, flags := .empty
       body := .image
        { importName := some "swapchain", extent := .window, layers := .fixed 1
          format := .swapchain, usage := .empty } },
     { name := "map${i}", condition := .always, repetition := .once, flags := .empty
       body := .image
        { importName := some "map", extent := .window, layers := .fixed 1, format := .swapchain
          usage := .empty } }]
  passes := []
  outputs := { present := some "screen", exportImages := ["map${i}"], exportBuffers := [] }
  resourceNames := .positions ["screen", "map${i}"]
  passNames := ∅

theorem ofDocument_exported : Graph.ofDocument exported.document = .ok exported := by rfl

/-- The build finds what is presented, but not what is exported. -/
theorem outputs_found_exported :
    Graph.ofDocument exported.document = .ok exported ∧ 1 ≤ ({} : Frame).shadowCascadeCount ∧
    (∀ r ∈ exported.resources, ({} : Frame).admits r.condition = true) ∧
    ∃ known, exported.Materializes Recording.engine {} ({} : Recording Unit) known ∧
      known.Finds (Recording Unit) .image "screen" ∧
      ¬known.Finds (Recording Unit) .image "map${i}" := by
  have hcascades : 1 ≤ ({} : Frame).shadowCascadeCount := by decide
  have hadmits : ∀ r ∈ exported.resources, ({} : Frame).admits r.condition = true := by decide
  obtain ⟨known, hknown⟩ :
      ∃ known, exported.Materializes Recording.engine {} ({} : Recording Unit) known := ⟨_, _, rfl⟩
  obtain ⟨hpresent, hexports, -⟩ := Graph.outputs_found_iff ofDocument_exported hcascades hadmits hknown
  refine ⟨ofDocument_exported, hcascades, hadmits, known, hknown, ?_, ?_⟩
  · exact (hpresent "screen" rfl).2 (by decide)
  · intro hfound
    exact (hexports "map${i}" (List.mem_singleton_self _)).1 hfound (by decide)

/-- A document may export what its build never finds, though the frame admits every resource. -/
theorem export_not_found :
    ¬∀ (document : Json) (g : Graph) (frame : Frame), Graph.ofDocument document = .ok g →
      1 ≤ frame.shadowCascadeCount → (∀ r ∈ g.resources, frame.admits r.condition = true) →
      ∀ known, g.Materializes Recording.engine frame ({} : Recording Unit) known →
        ∀ name ∈ g.outputs.exportImages, known.Finds (Recording Unit) .image name := by
  intro h
  obtain ⟨known, hknown⟩ :
      ∃ known, exported.Materializes Recording.engine {} ({} : Recording Unit) known := ⟨_, _, rfl⟩
  have hfound := h exported.document exported {} ofDocument_exported (by decide) (by decide) known
    hknown "map${i}" (List.mem_singleton_self _)
  rw [hknown.finds_iff] at hfound
  exact absurd hfound (by decide)

end

end FrameGraph
