import FrameGraph.Proofs.Recording.Partial
import Mathlib.Data.List.Forall2

namespace FrameGraph

variable {ε α β : Type} {frame frame' : Frame}

/-- The frames have the editor and the number of cascades in common. -/
structure Frame.Resized (frame frame' : Frame) : Prop where
  editor : frame.editorEnabled = frame'.editorEnabled
  cascades : frame.shadowCascadeCount = frame'.shadowCascadeCount

namespace Frame.Resized

variable (h : frame.Resized frame')

include h

theorem count : frame.count = frame'.count := by
  funext source
  cases source
  exact h.cascades

theorem admits : frame.admits = frame'.admits := by
  funext c
  unfold Frame.admits
  rw [h.editor]

theorem instances : frame.instances = frame'.instances := by
  funext r
  unfold Frame.instances
  rw [h.count]

theorem layers : frame.layers = frame'.layers := by
  funext l
  unfold Frame.layers
  rw [h.count]

theorem iterations : frame.iterations = frame'.iterations := by
  funext c r
  unfold Frame.iterations
  rw [h.admits, h.instances]

end Frame.Resized

/-- An instance of a resource that is an image. -/
structure ImageInstance where
  resource : Resource
  image : Image
  iteration : UInt32

def ImageInstance.request (x : ImageInstance) (frame : Frame) : ImageRequest :=
  x.resource.imageRequest x.image frame x.iteration

/-- The instances of the images of the graph in a frame, in order. -/
def Graph.imageInstances (g : Graph) (frame : Frame) : List ImageInstance :=
  g.resources.flatMap fun r =>
    match r.body with
    | .image i => (frame.iterations r.condition r.repetition).map (⟨r, i, ·⟩)
    | .buffer _ => []

theorem Graph.imageRequests_eq_map (g : Graph) (frame : Frame) :
    g.imageRequests frame = (g.imageInstances frame).map (·.request frame) := by
  unfold imageRequests imageInstances
  rw [List.map_flatMap]
  refine List.flatMap_congr fun r _ => ?_
  cases r.body with
  | image i =>
    dsimp only
    rw [List.map_map]
    rfl
  | buffer b => rfl

theorem Graph.body_of_mem_imageInstances {g : Graph} {x : ImageInstance}
    (h : x ∈ g.imageInstances frame) : x.resource ∈ g.resources ∧ x.resource.body = .image x.image := by
  obtain ⟨r, hr, hx⟩ := List.mem_flatMap.1 h
  cases hb : r.body with
  | image i =>
    rw [hb] at hx
    obtain ⟨n, -, rfl⟩ := List.mem_map.1 hx
    exact ⟨hr, hb⟩
  | buffer b =>
    rw [hb] at hx
    exact absurd hx List.not_mem_nil

namespace Frame.Resized

variable (h : frame.Resized frame')

include h

theorem imageInstances (g : Graph) : g.imageInstances frame = g.imageInstances frame' := by
  unfold Graph.imageInstances
  rw [h.iterations]

theorem imageNames (g : Graph) :
    (g.imageRequests frame).map (·.name) = (g.imageRequests frame').map (·.name) := by
  rw [g.imageRequests_eq_map, g.imageRequests_eq_map, h.imageInstances, List.map_map, List.map_map]
  rfl

theorem bufferRequests (g : Graph) : g.bufferRequests frame = g.bufferRequests frame' := by
  unfold Graph.bufferRequests
  rw [h.iterations]

theorem passRequests (g : Graph) : g.passRequests frame = g.passRequests frame' := by
  unfold Graph.passRequests
  rw [h.iterations]

theorem stats (g : Graph) : g.stats frame = g.stats frame' := by
  have himages : (g.imageRequests frame).length = (g.imageRequests frame').length := by
    rw [g.imageRequests_eq_map, g.imageRequests_eq_map, h.imageInstances, List.length_map,
      List.length_map]
  unfold Graph.stats
  rw [himages, h.bufferRequests, h.passRequests, h.admits]

end Frame.Resized

/-- The steps are the same, or they request images of one name, or they only say something. -/
inductive PlanStep.Resembles : PlanStep ε → PlanStep ε → Prop where
  | image {q q' : ImageRequest} (h : q.name = q'.name) : Resembles (.image q) (.image q')
  | note (severity : Severity) (message message' : String) :
    Resembles (.note severity message) (.note severity message')
  | same (x : PlanStep ε) : Resembles x x

namespace Plan

open Build PlanStep

/-- The plans resemble each other step by step. -/
def Resembles (p p' : Plan ε) : Prop := List.Forall₂ PlanStep.Resembles p p'

theorem resembles_refl (p : Plan ε) : Resembles p p :=
  List.forall₂_same.2 fun x _ => .same x

theorem Resembles.append {p p' q q' : Plan ε} (hp : Resembles p p') (hq : Resembles q q') :
    Resembles (p ++ q) (p' ++ q') :=
  List.rel_append hp hq

theorem resembles_flatMap {f f' : α → Plan ε} (h : ∀ a, Resembles (f a) (f' a)) (as : List α) :
    Resembles (as.flatMap f) (as.flatMap f') := by
  refine List.rel_flatMap (R := Eq) (List.forall₂_same.2 fun _ _ => rfl) ?_
  rintro a _ rfl
  exact h a

theorem resembles_mapIdx {f f' : Nat → α → Plan ε} (h : ∀ i a, Resembles (f i a) (f' i a))
    (as : List α) : Resembles (as.mapIdx f).flatten (as.mapIdx f').flatten := by
  refine List.rel_flatten (List.forall₂_iff_get.2 ⟨by simp, fun i _ _ => ?_⟩)
  rw [List.get_eq_getElem, List.get_eq_getElem, List.getElem_mapIdx, List.getElem_mapIdx]
  exact h i _

variable (h : frame.Resized frame')

include h

theorem resembles_ofResourceAt (position : Nat) (r : Resource) (n : UInt32) :
    Resembles (ofResourceAt frame position r n : Plan ε) (ofResourceAt frame' position r n) := by
  unfold ofResourceAt
  cases r.body with
  | buffer b => exact resembles_refl _
  | image i =>
    have hlayers : (r.imageRequest i frame n).description.layers =
        (r.imageRequest i frame' n).description.layers := congrFun h.layers i.layers
    dsimp only
    rw [hlayers]
    by_cases hzero : (r.imageRequest i frame' n).description.layers = 0
    · rw [if_pos hzero, if_pos hzero]
      exact resembles_refl _
    · rw [if_neg hzero, if_neg hzero]
      exact .cons (.image rfl) (.cons (.note ..) .nil)

theorem resembles_ofResource (position : Nat) (r : Resource) :
    Resembles (ofResource frame position r : Plan ε) (ofResource frame' position r) := by
  unfold ofResource
  rw [h.admits, h.instances]
  by_cases ha : frame'.admits r.condition = true
  · rw [if_pos ha, if_pos ha]
    exact resembles_flatMap (resembles_ofResourceAt h position r) _
  · rw [if_neg ha, if_neg ha]
    exact resembles_refl _

/-- A pass asks the frame for no size and no format. -/
theorem ofPass_resized (executors : String → Option ε) :
    ofPass frame executors = ofPass frame' executors := by
  have huse : (ofUse frame : Scope → UseMode → _ → UInt32 → Use → Plan ε) = ofUse frame' := by
    funext scope mode p n u
    unfold ofUse
    rw [h.count]
  have huses : (ofUses frame : Scope → UseMode → _ → UInt32 → List Use → Plan ε) = ofUses frame' := by
    funext scope mode p n uses
    unfold ofUses
    rw [huse]
  funext scope position d
  unfold ofPass ofPassAt
  rw [h.admits, h.instances, huses]

theorem resembles_plan (g : Graph) (executors : String → Option ε) :
    Resembles (g.plan frame executors) (g.plan frame' executors) := by
  unfold Graph.plan
  rw [h.imageNames, h.bufferRequests, h.stats, ofPass_resized h]
  exact (((resembles_mapIdx (resembles_ofResource h) _).append (resembles_refl _)).append
    (resembles_refl _)).append (resembles_refl _)

end Plan

namespace Recording

open Plan

/-- The recording with other images under the same keys and names. -/
def withImages (r : Recording ε) (images : List ImageRequest) : Recording ε :=
  { r with imageStore := { r.imageStore with records := images } }

/-- The recordings differ in their images alone, and not in the names of those. -/
structure SameButImages (r r' : Recording ε) : Prop where
  rest : r.withImages r'.images = r'
  names : r.imageNames = r'.imageNames

theorem sameButImages_refl (r : Recording ε) : SameButImages r r := ⟨rfl, rfl⟩

/-- The action neither looks at the images of a recording nor changes them. -/
def Blind (x : Action (Recording ε) α) : Prop :=
  ∀ r images, x (r.withImages images) = ⟨(x r).state.withImages images, (x r).log, (x r).result⟩

theorem blind_pure (a : α) : Blind (pure a : Action (Recording ε) α) := fun _ _ => rfl

theorem Blind.bind {x : Action (Recording ε) α} {f : α → Action (Recording ε) β} (hx : Blind x)
    (hf : ∀ a, Blind (f a)) : Blind (x >>= f) := by
  intro r images
  have hsee := hx r images
  rcases hr : x r with ⟨t, log, e | a⟩
  · rw [hr] at hsee
    rw [Action.bind_of_error hr, Action.bind_of_error hsee]
  · rw [hr] at hsee
    rw [Action.bind_of_ok hr, Action.bind_of_ok hsee, hf a t images]

/-- Declaring in a store that is not that of the images. -/
theorem blind_declare {τ : Type} {what name : String} {a : α} {store : Recording ε → Store τ α}
    {put : Recording ε → Store τ α → Recording ε}
    (hstore : ∀ r images, store (r.withImages images) = store r)
    (hput : ∀ r images t, put (r.withImages images) t = (put r t).withImages images) :
    Blind (declare what name a store put) := by
  intro r images
  have hmem : name ∈ (store (r.withImages images)).taken ↔ name ∈ (store r).taken := by
    rw [hstore]
  by_cases h : name ∈ (store r).taken
  · rw [declare_of_mem r h, declare_of_mem (r.withImages images) (hmem.2 h)]
    rfl
  · rw [declare_of_not_mem r h, declare_of_not_mem (r.withImages images) (mt hmem.1 h), hstore, hput]

theorem blind_updatePass (k : PassKey) (change : PassRecord ε → PassRecord ε) :
    Blind (updatePass k change) := by
  intro r images
  cases h : (r.pass? k).isSome with
  | true =>
    rw [updatePass_of_isSome r h, updatePass_of_isSome (r.withImages images) h]
    rfl
  | false =>
    have hnone : r.pass? k = none := Option.isNone_iff_eq_none.1 (Option.isSome_eq_false_iff.1 h)
    rw [updatePass_of_none r hnone, updatePass_of_none (r.withImages images) hnone]
    rfl

/-- No command looks at an image. -/
theorem blind_perform (c : Command ImageKey BufferKey PassKey ε) : Blind (perform c) := by
  cases c with
  | setPresent image =>
    intro r images
    by_cases h : r.present = none
    · rw [setPresent_of_none r image h, setPresent_of_none (r.withImages images) image h]
      rfl
    · have hs : r.present.isSome = true := Option.isSome_iff_ne_none.2 h
      rw [setPresent_of_isSome r image hs, setPresent_of_isSome (r.withImages images) image hs]
      rfl
  | exportImage | exportBuffer => exact fun _ _ => rfl
  | _ => exact blind_updatePass _ _

/-- The outcomes have one result, and recordings that differ in their images alone. -/
structure SameOutcome (o o' : Outcome (Recording ε) α) : Prop where
  state : SameButImages o.state o'.state
  result : o.result = o'.result

variable {r r' : Recording ε} {h : Handles ImageKey BufferKey PassKey}

theorem Blind.sameOutcome {x : Action (Recording ε) α} (hx : Blind x) (hr : SameButImages r r') :
    SameOutcome (x r) (x r') := by
  -- With its own images put in their place, a recording is itself, so they stay.
  have hkept : (x r).state.images = r.images := congrArg (fun o => o.state.images) (hx r r.images)
  rw [← hr.rest, hx r r'.images]
  refine ⟨⟨rfl, ?_⟩, rfl⟩
  show (x r).state.images.map (·.name) = r'.images.map (·.name)
  rw [hkept]
  exact hr.names

theorem sameOutcome_declareImage {q q' : ImageRequest} (hq : q.name = q'.name)
    (hr : SameButImages r r') : SameOutcome (declareImage q r) (declareImage q' r') := by
  have hlength : r'.images.length = r.images.length := by
    have hmap := congrArg List.length hr.names
    unfold imageNames at hmap
    rw [List.length_map, List.length_map] at hmap
    exact hmap.symm
  have hnext : r'.imageStore.next = r.imageStore.next := by
    rw [← hr.rest]
    exact congrArg r.imageStore.allotment.key hlength
  have htaken : r'.imageStore.taken = r.imageStore.taken := by
    rw [← hr.rest]
    rfl
  unfold declareImage
  by_cases h : q.name ∈ r.imageStore.taken
  · have h' : q'.name ∈ r'.imageStore.taken := by rwa [htaken, ← hq]
    rw [declare_of_mem r h, declare_of_mem r' h', hq]
    exact ⟨hr, rfl⟩
  · have h' : q'.name ∉ r'.imageStore.taken := by rwa [htaken, ← hq]
    rw [declare_of_not_mem r h, declare_of_not_mem r' h', hnext]
    refine ⟨⟨?_, ?_⟩, rfl⟩
    · show _ = { r' with imageStore := r'.imageStore.add q'.name q' }
      unfold Store.add
      rw [hnext, ← hq]
      conv => rhs; rw [← hr.rest]
      rfl
    · show (r.images ++ [q]).map (·.name) = (r'.images ++ [q']).map (·.name)
      rw [List.map_append, List.map_append, List.map_singleton, List.map_singleton, hq]
      exact congrArg (· ++ [q'.name]) hr.names

theorem SameOutcome.bind {x x' : Action (Recording ε) α} {f f' : α → Action (Recording ε) β}
    (hx : SameOutcome (x r) (x' r'))
    (hf : ∀ a t t', SameButImages t t' → SameOutcome (f a t) (f' a t')) :
    SameOutcome ((x >>= f) r) ((x' >>= f') r') := by
  obtain ⟨hstate, hresult⟩ := hx
  rcases hr : x r with ⟨t, log, result⟩
  rcases hr' : x' r' with ⟨t', log', result'⟩
  rw [hr, hr'] at hstate hresult
  obtain rfl : result = result' := hresult
  cases result with
  | error e =>
    rw [Action.bind_of_error hr, Action.bind_of_error hr']
    exact ⟨hstate, rfl⟩
  | ok a =>
    obtain ⟨hstate', hresult'⟩ := hf a t t' hstate
    rw [Action.bind_of_ok hr, Action.bind_of_ok hr']
    exact ⟨hstate', hresult'⟩

/-- Only requests of images look at images. -/
theorem blind_step {x : PlanStep ε} (hx : ∀ q, x ≠ .image q) : Blind (Plan.step engine h x) := by
  cases x with
  | image q => exact absurd rfl (hx q)
  | buffer q =>
    have hdeclare : Blind (declareBuffer q : Action (Recording ε) _) :=
      blind_declare (fun _ _ => rfl) fun _ _ _ => rfl
    exact hdeclare.bind fun _ => blind_pure _
  | pass q =>
    have hdeclare : Blind (declarePass q : Action (Recording ε) _) :=
      blind_declare (fun _ _ => rfl) fun _ _ _ => rfl
    exact hdeclare.bind fun _ => blind_pure _
  | command c =>
    cases hc : h.resolve? c with
    | some c' =>
      have hstep : Plan.step engine h (.command c) = perform c' >>= fun _ => pure h := by
        simp [Plan.step, hc, engine]
      rw [hstep]
      exact (blind_perform c').bind fun _ => blind_pure _
    | none =>
      have hstep : Plan.step engine h (.command c) = pure h := by
        simp [Plan.step, hc]
      rw [hstep]
      exact blind_pure h
  | note severity message => exact Blind.bind (fun _ _ => rfl) fun _ => blind_pure _
  | stop e => exact fun _ _ => rfl

/-- Steps that resemble each other give out the same keys, since images are numbered by their order. -/
theorem sameOutcome_step {x x' : PlanStep ε} (hx : x.Resembles x') (hr : SameButImages r r') :
    SameOutcome (Plan.step engine h x r) (Plan.step engine h x' r') := by
  have himage {q q' : ImageRequest} (hq : q.name = q'.name) :
      SameOutcome (Plan.step engine h (.image q) r) (Plan.step engine h (.image q') r') := by
    refine (sameOutcome_declareImage hq hr).bind fun k t t' ht => ?_
    rw [hq]
    exact ⟨ht, rfl⟩
  cases hx with
  | image hq => exact himage hq
  | note severity message message' => exact ⟨hr, rfl⟩
  | same =>
    cases x with
    | image q => exact himage rfl
    | _ => exact (blind_step (by simp)).sameOutcome hr

/-- Plans that resemble each other have one result. -/
theorem sameOutcome_run {p p' : Plan ε} (hp : Resembles p p') (hr : SameButImages r r') :
    SameOutcome (Plan.run engine p h r) (Plan.run engine p' h r') := by
  induction hp generalizing h r r' with
  | nil => exact ⟨hr, rfl⟩
  | cons hx _ ih => exact (sameOutcome_step hx hr).bind fun _ _ _ ht => ih ht

end Recording

/-- The requests of the image differ in size and format alone, and only where it leaves these to the
frame. -/
structure Image.Resized (i : Image) (q q' : ImageRequest) : Prop where
  rest : q' = { q with description :=
    { q.description with size := q'.description.size, format := q'.description.format } }
  size : ∀ width height, i.extent = .fixed width height →
    q.description.size = ⟨width, height⟩ ∧ q'.description.size = ⟨width, height⟩
  format : ∀ f, i.format = .explicit f → q.description.format = f ∧ q'.description.format = f

theorem ImageInstance.resized (h : frame.Resized frame') (x : ImageInstance) :
    x.image.Resized (x.request frame) (x.request frame') := by
  refine ⟨?_, ?_, ?_⟩
  · unfold request Resource.imageRequest
    rw [h.layers]
  · intro width height hextent
    unfold request Resource.imageRequest
    rw [hextent]
    exact ⟨rfl, rfl⟩
  · intro f hformat
    unfold request Resource.imageRequest
    rw [hformat]
    exact ⟨rfl, rfl⟩

namespace Graph

open Plan Recording

/-- Two recordings that were one: to each the same first images of the graph were added, as its frame
has them, and everything else is the same in both. -/
structure Resized (g : Graph) (frame frame' : Frame) (s r r' : Recording ε) : Prop where
  rest : r.withImages r'.images = r'
  images : ∃ added, added <+: g.imageInstances frame ∧
    r.images = s.images ++ added.map (·.request frame) ∧
    r'.images = s.images ++ added.map (·.request frame') ∧
    ∀ x ∈ added, x.resource ∈ g.resources ∧ x.resource.body = .image x.image ∧
      x.image.Resized (x.request frame) (x.request frame')

theorem sameOutcome_build (g : Graph) (executors : String → Option ε) (s : Recording ε)
    (h : frame.Resized frame') :
    SameOutcome (g.build engine frame executors s) (g.build engine frame' executors s) := by
  obtain ⟨hstate, hresult⟩ := sameOutcome_run (h := {}) (resembles_plan h g executors)
    (sameButImages_refl s)
  rw [(g.build_agrees_run engine frame executors).eq_map,
    (g.build_agrees_run engine frame' executors).eq_map, Action.map_apply, Action.map_apply,
    h.stats, hresult]
  exact ⟨hstate, rfl⟩

/-- What a build adds to the images are the first ones that the graph requests. -/
theorem exists_images_added (g : Graph) (frame : Frame) (executors : String → Option ε)
    (s : Recording ε) :
    ∃ new, (g.build engine frame executors s).state.images = s.images ++ new ∧
      new <+: g.imageRequests frame := by
  obtain ⟨hstate, -, -⟩ := g.build_agrees_run engine frame executors s
  rw [hstate]
  obtain ⟨images, buffers, passes, hextends, himages, -⟩ | ⟨h, a, -, hextends, himages, -⟩ :=
    g.run_plan_cases frame executors s
  · exact ⟨images, hextends.images, himages⟩
  · exact ⟨a.images, hextends.images, himages ▸ List.prefix_refl _⟩

/-- The first requests for images are those of the first instances. -/
theorem eq_map_take_of_prefix {g : Graph} {new : List ImageRequest}
    (h : new <+: g.imageRequests frame) :
    new = ((g.imageInstances frame).take new.length).map (·.request frame) := by
  rw [List.map_take, ← imageRequests_eq_map]
  exact List.prefix_iff_eq_take.1 h

/-- Builds of a graph for two frames with the editor and the number of cascades in common have the same
result, and their recordings differ in sizes and formats of the images they added, and in nothing else. -/
theorem build_resized (g : Graph) (executors : String → Option ε) (s : Recording ε)
    (h : frame.Resized frame') :
    (g.build engine frame executors s).result = (g.build engine frame' executors s).result ∧
      g.Resized frame frame' s (g.build engine frame executors s).state
        (g.build engine frame' executors s).state := by
  obtain ⟨hstate, hresult⟩ := g.sameOutcome_build executors s h
  obtain ⟨new, hnew, hprefix⟩ := g.exists_images_added frame executors s
  obtain ⟨new', hnew', hprefix'⟩ := g.exists_images_added frame' executors s
  have hlength : new.length = new'.length := by
    have hnames := congrArg List.length hstate.names
    unfold imageNames at hnames
    rw [hnew, hnew'] at hnames
    simpa using hnames
  have himages := eq_map_take_of_prefix hprefix
  have himages' := eq_map_take_of_prefix hprefix'
  rw [← hlength, ← h.imageInstances] at himages'
  refine ⟨hresult, hstate.rest, (g.imageInstances frame).take new.length, List.take_prefix .., ?_, ?_, ?_⟩
  · rw [← himages, hnew]
  · rw [← himages', hnew']
  · intro x hx
    obtain ⟨hr, hbody⟩ := body_of_mem_imageInstances (List.mem_of_mem_take hx)
    exact ⟨hr, hbody, x.resized h⟩

/-- The cascades with an image that leaves neither its size nor its format to the frame. -/
def cascadesWithTable : Graph :=
  { cascades with
    resources :=
      { name := "table", condition := .always, repetition := .once, flags := .empty
        body := .image
          { importName := none, extent := .fixed 16 16, layers := .fixed 1
            format := .explicit .r8g8b8a8Unorm, usage := .empty } } :: cascades.resources
    resourceNames := .positions ["table", "cascade${i}", "lights", "screen"] }

def smallWindow : Frame := { shadowCascadeCount := 2, window := ⟨640, 480⟩ }

def largeWindow : Frame :=
  { smallWindow with window := ⟨1920, 1080⟩, shadowMapSize := 4096, swapchainFormat := .r8g8b8a8Srgb }

theorem cascadesWithTable_resized :
    smallWindow.Resized largeWindow ∧
    (cascadesWithTable.build engine smallWindow some {}).result =
      (cascadesWithTable.build engine largeWindow some {}).result ∧
    cascadesWithTable.Resized smallWindow largeWindow {}
      (cascadesWithTable.build engine smallWindow some {}).state
      (cascadesWithTable.build engine largeWindow some {}).state :=
  ⟨⟨rfl, rfl⟩, build_resized cascadesWithTable some {} ⟨rfl, rfl⟩⟩

example : ((cascadesWithTable.build engine largeWindow some {}).state.images.map fun q =>
    (q.name, q.description.size)) =
      [("table", ⟨16, 16⟩), ("cascade0", ⟨4096, 4096⟩), ("cascade1", ⟨4096, 4096⟩),
        ("screen", ⟨1920, 1080⟩)] := by
  decide +kernel

end Graph

end FrameGraph
