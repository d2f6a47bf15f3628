import FrameGraph.Proofs.Document.Order
import FrameGraph.Proofs.Document.Writing
import FrameGraph.Proofs.Recording.Build

namespace FrameGraph

variable {ε κ α : Type}

structure NamedAttachment where
  image : Option String
  description : AttachmentDescription
  readOnly : Bool

/-- A pass as recorded, with names in place of keys. -/
structure NamedPass (ε : Type) where
  name : String
  type : PassType
  flags : FlagSet PassFlag
  domain : Option Domain
  executor : Option ε
  colors : List NamedAttachment
  depth : Option NamedAttachment
  imageReads : List (UseRecord (Option String) ImageAccess)
  imageWrites : List (UseRecord (Option String) ImageAccess)
  bufferReads : List (UseRecord (Option String) BufferAccess)
  bufferWrites : List (UseRecord (Option String) BufferAccess)

/-- The passes and outputs of a recording, with names in place of keys. -/
structure NamedRecording (ε : Type) where
  passes : List (NamedPass ε)
  present : Option (Option String)
  exportedImages : List (Option String)
  exportedBuffers : List (Option String)

def UseRecord.named (nameOf : κ → Option String) (u : UseRecord κ α) : UseRecord (Option String) α :=
  ⟨nameOf u.resource, u.access, u.binding⟩

def AttachmentRecord.named (r : Recording ε) (a : AttachmentRecord) : NamedAttachment :=
  ⟨r.imageName? a.image, a.description, a.readOnly⟩

def PassRecord.named (r : Recording ε) (p : PassRecord ε) : NamedPass ε where
  name := p.name
  type := p.type
  flags := p.flags
  domain := p.domain
  executor := p.executor
  colors := p.colors.map (·.named r)
  depth := p.depth.map (·.named r)
  imageReads := p.imageReads.map (·.named r.imageName?)
  imageWrites := p.imageWrites.map (·.named r.imageName?)
  bufferReads := p.bufferReads.map (·.named r.bufferName?)
  bufferWrites := p.bufferWrites.map (·.named r.bufferName?)

def Recording.named (r : Recording ε) : NamedRecording ε where
  passes := r.passes.map (·.named r)
  present := r.present.map r.imageName?
  exportedImages := r.exportedImages.map r.imageName?
  exportedBuffers := r.exportedBuffers.map r.bufferName?

/-- Two recordings of the same images and buffers by name, and of the same passes and outputs once each
key is replaced by the name that it has in its own recording. -/
structure Recording.SameByName (r r' : Recording ε) : Prop where
  images : ∀ name, r.imageNamed? name = r'.imageNamed? name
  buffers : ∀ name, r.bufferNamed? name = r'.bufferNamed? name
  named : r.named = r'.named

def AttachmentAccount.named (a : AttachmentAccount) : NamedAttachment :=
  ⟨some a.image, a.description, a.readOnly⟩

def PassAccount.named (p : PassAccount ε) : NamedPass ε where
  name := p.name
  type := p.type
  flags := p.flags
  domain := p.domain
  executor := p.executor
  colors := p.colors.map (·.named)
  depth := p.depth.map (·.named)
  imageReads := (p.reads.filterMap (·.image?)).map (·.named some)
  imageWrites := (p.writes.filterMap (·.image?)).map (·.named some)
  bufferReads := (p.reads.filterMap (·.buffer?)).map (·.named some)
  bufferWrites := (p.writes.filterMap (·.buffer?)).map (·.named some)

def Account.named (a : Account ε) : NamedRecording ε where
  passes := a.passes.map (·.named)
  present := a.presented.head?.map some
  exportedImages := a.exportedImages.map some
  exportedBuffers := a.exportedBuffers.map some

theorem UseRecord.Shows.named_eq {nameOf : κ → Option String} {u : UseRecord κ α}
    {v : UseRecord String α} (h : u.Shows nameOf v) : u.named nameOf = v.named some := by
  unfold UseRecord.named
  rw [h.resource, h.access, h.binding]

theorem AttachmentRecord.Shows.named_eq {r : Recording ε} {a : AttachmentRecord}
    {b : AttachmentAccount} (h : a.Shows r b) : a.named r = b.named := by
  unfold AttachmentRecord.named AttachmentAccount.named
  rw [h.image, h.description, h.readOnly]

theorem PassRecord.Shows.named_eq {r : Recording ε} {p : PassRecord ε} {a : PassAccount ε}
    (h : p.Shows r a) : p.named r = a.named := by
  have hdepth : p.depth.map (·.named r) = a.depth.map (·.named) := by
    have hlist := map_eq_of_forall₂ h.depth fun _ _ hd => hd.named_eq
    cases hp : p.depth <;> cases ha : a.depth <;> simp_all
  unfold PassRecord.named PassAccount.named
  rw [h.name, h.type, h.flags, h.domain, h.executor, hdepth,
    map_eq_of_forall₂ h.colors fun _ _ hc => hc.named_eq,
    map_eq_of_forall₂ h.imageReads fun _ _ hu => hu.named_eq,
    map_eq_of_forall₂ h.imageWrites fun _ _ hu => hu.named_eq,
    map_eq_of_forall₂ h.bufferReads fun _ _ hu => hu.named_eq,
    map_eq_of_forall₂ h.bufferWrites fun _ _ hu => hu.named_eq]

namespace Recording

theorem Extends.named_eq {images : Allotment ImageRequest} {buffers : Allotment BufferRequest}
    {passes : Allotment PassRequest} {r : Recording ε} {a : Account ε}
    (h : Extends (empty images buffers passes) a r) : r.named = a.named := by
  have hpresent : r.present.map r.imageName? = a.presented.head?.map some := by
    have hlist := map_eq_of_forall₂ h.presented.of_nil fun _ _ hk => hk
    rw [← List.head?_map, ← hlist]
    cases r.present <;> rfl
  unfold named Account.named
  rw [hpresent, map_eq_of_forall₂ h.passes.of_nil fun _ _ hp => hp.named_eq,
    map_eq_of_forall₂ h.exportedImages.of_nil fun _ _ hk => hk,
    map_eq_of_forall₂ h.exportedBuffers.of_nil fun _ _ hk => hk]

end Recording

/-- Consistent stores of the same records find the same by name, in whatever order they keep them. -/
theorem Store.named?_of_perm {τ : Type} {nameOf : α → String} {s s' : Store τ α}
    (hs : s.Consistent nameOf) (hs' : s'.Consistent nameOf) (h : s.records.Perm s'.records)
    (name : String) : s.named? name = s'.named? name := by
  apply Option.ext
  intro a
  rw [hs.named?_eq_some_iff, hs'.named?_eq_some_iff, h.mem_iff]

theorem apart_of_perm {taken names names' : List String} (h : names.Perm names') :
    Apart taken names → Apart taken names' := by
  intro hapart
  exact ⟨h.nodup_iff.1 hapart.1, fun name hname => hapart.2 name (h.mem_iff.2 hname)⟩

namespace Graph

open Plan Recording

/-- The same graph but for the order of its resources. -/
structure Rearranged (g g' : Graph) : Prop where
  resources : g.resources.Perm g'.resources
  passes : g.passes = g'.passes
  outputs : g.outputs = g'.outputs

variable {g g' : Graph} {frame : Frame} {executors : String → Option ε}

theorem Rearranged.symm (h : Rearranged g g') : Rearranged g' g :=
  ⟨h.resources.symm, h.passes.symm, h.outputs.symm⟩

theorem rearranged_reorder (g : Graph) {order : List Nat}
    (h : order.Perm (List.range g.resources.length)) : Rearranged g (g.reorder order) :=
  ⟨(reorder_perm h).symm, rfl, rfl⟩

theorem Rearranged.imageRequests (h : Rearranged g g') (frame : Frame) :
    (g.imageRequests frame).Perm (g'.imageRequests frame) :=
  h.resources.flatMap_right _

theorem Rearranged.bufferRequests (h : Rearranged g g') (frame : Frame) :
    (g.bufferRequests frame).Perm (g'.bufferRequests frame) :=
  h.resources.flatMap_right _

theorem Rearranged.stats (h : Rearranged g g') (frame : Frame) : g.stats frame = g'.stats frame := by
  unfold Graph.stats passRequests
  rw [(h.imageRequests frame).length_eq, (h.bufferRequests frame).length_eq,
    h.resources.countP_eq, h.passes]

theorem Rearranged.mem_names_iff (h : Rearranged g g') (type : ResourceType) {name : String} :
    name ∈ (g.scope frame).names type ↔ name ∈ (g'.scope frame).names type := by
  cases type with
  | image => exact ((h.imageRequests frame).map _).mem_iff
  | buffer => exact ((h.bufferRequests frame).map _).mem_iff

theorem Rearranged.passNamesIn (h : Rearranged g g') (frame : Frame) :
    g'.passNamesIn frame = g.passNamesIn frame := by
  unfold Graph.passNamesIn passRequests
  rw [h.passes]

theorem Rearranged.buildable {s : Recording ε} (h : Rearranged g g')
    (hb : g.Buildable frame executors s) : g'.Buildable frame executors s := by
  have hpasses : g'.passes = g.passes := h.passes.symm
  have houtputs : g'.outputs = g.outputs := h.outputs.symm
  have hnames (type : ResourceType) {name : String} (hname : name ∈ (g.scope frame).names type) :
      name ∈ (g'.scope frame).names type := (h.mem_names_iff type).1 hname
  constructor
  case layers =>
    intro r hr
    exact hb.layers r (h.resources.mem_iff.2 hr)
  case executors =>
    rw [hpasses]
    exact hb.executors
  case imageNames => exact apart_of_perm ((h.imageRequests frame).map _) hb.imageNames
  case bufferNames => exact apart_of_perm ((h.bufferRequests frame).map _) hb.bufferNames
  case passNames =>
    rw [h.passNamesIn frame]
    exact hb.passNames
  case colors =>
    intro d hd n hn c hc
    rw [hpasses] at hd
    exact hnames .image (hb.colors d hd n hn c hc)
  case depth =>
    intro d hd n hn a ha
    rw [hpasses] at hd
    exact hnames .image (hb.depth d hd n hn a ha)
  case uses =>
    intro d hd n hn u hu m hm
    rw [hpasses] at hd
    exact hnames _ (hb.uses d hd n hn u hu m hm)
  case present =>
    intro name hname
    rw [houtputs] at hname
    obtain ⟨himage, hrest⟩ := hb.present name hname
    exact ⟨hnames .image himage, hrest⟩
  case exportImages =>
    intro name hname
    rw [houtputs] at hname
    exact hnames .image (hb.exportImages name hname)
  case exportBuffers =>
    intro name hname
    rw [houtputs] at hname
    exact hnames .buffer (hb.exportBuffers name hname)

/-- A build that succeeds counts what the graph declares. -/
theorem stats_of_build {s : Recording ε} {stats : Stats}
    (h : (g.build engine frame executors s).result = .ok stats) : stats = g.stats frame := by
  rw [(g.build_agrees_run engine frame executors).eq_map, Action.map_apply] at h
  obtain ⟨_, -, hstats⟩ := Document.map_eq_ok.1 h
  exact hstats.symm

theorem build_eq_ok_iff (s : Recording ε) (stats : Stats) :
    (g.build engine frame executors s).result = .ok stats ↔
      g.Buildable frame executors s ∧ stats = g.stats frame := by
  constructor
  · intro h
    obtain ⟨hs, hroom⟩ := (build_isOk_iff s).1 ⟨stats, h⟩
    exact ⟨buildable_of_stopless hs hroom, stats_of_build h⟩
  · intro h
    obtain ⟨hb, rfl⟩ := h
    obtain ⟨stats, hok⟩ := (build_isOk_iff s).2 ⟨hb.stopless, hb.room⟩
    rwa [stats_of_build hok] at hok

theorem Rearranged.build_eq_ok_iff (h : Rearranged g g') (s : Recording ε) (stats : Stats) :
    (g.build engine frame executors s).result = .ok stats ↔
      (g'.build engine frame executors s).result = .ok stats := by
  rw [Graph.build_eq_ok_iff, Graph.build_eq_ok_iff, h.stats]
  exact and_congr_left fun _ => ⟨h.buildable, h.symm.buildable⟩

/-- What two builds record that succeed is the same by name. -/
theorem Rearranged.sameByName (h : Rearranged g g') {images : Allotment ImageRequest}
    {buffers : Allotment BufferRequest} {passes : Allotment PassRequest} {stats : Stats}
    (hok : (g.build engine frame executors (empty images buffers passes)).result = .ok stats) :
    (g.build engine frame executors (empty images buffers passes)).state.SameByName
      (g'.build engine frame executors (empty images buffers passes)).state := by
  have he := extends_of_build hok
  have he' := extends_of_build ((h.build_eq_ok_iff _ stats).1 hok)
  refine ⟨fun name => ?_, fun name => ?_, ?_⟩
  · have hempty := Store.consistent_empty images ImageRequest.name
    have himages : (g.imageRequests frame).Perm (g'.imageRequests frame) := h.imageRequests frame
    refine Store.named?_of_perm (he.imageStore.consistent hempty) (he'.imageStore.consistent hempty)
      ?_ name
    exact (List.Perm.of_eq he.images).trans (himages.trans (.of_eq he'.images.symm))
  · have hempty := Store.consistent_empty buffers BufferRequest.name
    have hbuffers : (g.bufferRequests frame).Perm (g'.bufferRequests frame) :=
      h.bufferRequests frame
    refine Store.named?_of_perm (he.bufferStore.consistent hempty)
      (he'.bufferStore.consistent hempty) ?_ name
    exact (List.Perm.of_eq he.buffers).trans (hbuffers.trans (.of_eq he'.buffers.symm))
  · have hnamed : (g.account frame executors).named = (g'.account frame executors).named := by
      unfold Account.named account passAccounts
      rw [h.passes, h.outputs]
    rw [he.named_eq, he'.named_eq, hnamed]

/-- A document that is accepted is accepted with its resources in any order, as the same graph in that
order; and on an empty recording, whatever keys it gives out, either graph is built if the other one is,
with the same counts, and then leaves the same recording by name. -/
theorem resources_in_any_order {o : Document.Entries} {js : List Json} {order : List Nat}
    (hload : ofDocument (.object o) = .ok g)
    (hjs : Json.present? o "resources" = some (.array js))
    (horder : order.Perm (List.range js.length)) :
    ofDocument (.object (Json.put o "resources" (.array (FrameGraph.reorder order js)))) =
        .ok (g.reorder order) ∧
      ∀ (ε : Type) (images : Allotment ImageRequest) (buffers : Allotment BufferRequest)
        (passes : Allotment PassRequest) (frame : Frame) (executors : String → Option ε)
        (stats : Stats),
        let s : Recording ε := empty images buffers passes
        ((g.build engine frame executors s).result = .ok stats ↔
          ((g.reorder order).build engine frame executors s).result = .ok stats) ∧
        ((g.build engine frame executors s).result = .ok stats →
          (g.build engine frame executors s).state.SameByName
            ((g.reorder order).build engine frame executors s).state) := by
  have hlength := ((Document.fields_of_ofDocument hload).forall₂_resources hjs).length_eq
  have hrearranged : Rearranged g (g.reorder order) := by
    rw [hlength] at horder
    exact g.rearranged_reorder horder
  refine ⟨Document.ofDocument_put_reorder hload hjs horder, ?_⟩
  intro ε images buffers passes frame executors stats s
  exact ⟨hrearranged.build_eq_ok_iff s stats, fun hok => hrearranged.sameByName hok⟩

/-- A graph with an image for each shadow cascade, a buffer, and a pass that uses them all. -/
def lit : Graph where
  version := currentVersion
  name := "lit"
  resources :=
    [{ name := "cascade${i}", condition := .always, repetition := .counted .shadowCascadeCount
       flags := .empty
       body := .image
        { importName := none, extent := .square .shadowMapSize, layers := .fixed 1
          format := .shadowDepth, usage := FlagSet.empty.insert .sampled } },
     { name := "lights", condition := .always, repetition := .once, flags := .empty
       body := .buffer { size := 64, usage := FlagSet.empty.insert .uniform } },
     { name := "screen", condition := .always, repetition := .once, flags := .empty
       body := .image
        { importName := some "swapchain", extent := .window, layers := .fixed 1
          format := .swapchain, usage := .empty } }]
  passes :=
    [{ name := "light", work := .compute, flags := .empty, condition := .always, repetition := .once
       reads :=
        [{ name := "cascade${i}", access := .image .sampled
           repetition := .counted .shadowCascadeCount, binding := some .iteration
           arrayIndex := none },
         { name := "lights", access := .buffer .uniform, repetition := .once, binding := none
           arrayIndex := none }]
       writes :=
        [{ name := "screen", access := .image .storageWrite, repetition := .once, binding := none
           arrayIndex := none }]
       attachments := .none
       execute := "light" }]
  outputs := { present := some "screen", exportImages := [], exportBuffers := ["lights"] }
  resourceNames := .positions ["cascade${i}", "lights", "screen"]
  passNames := .positions ["light"]

/-- The resources of the document of the graph. -/
def litResources : List Json := lit.resources.map fun r => .object (Document.Written.resource r)

theorem lit_in_another_order :
    ofDocument (.object (Document.Written.graph lit)) = .ok lit ∧
    Json.present? (Document.Written.graph lit) "resources" = some (.array litResources) ∧
    [2, 0, 1].Perm (List.range litResources.length) ∧
    ofDocument (.object (Json.put (Document.Written.graph lit) "resources"
      (.array (FrameGraph.reorder [2, 0, 1] litResources)))) = .ok (lit.reorder [2, 0, 1]) ∧
    ((lit.reorder [2, 0, 1]).build engine { shadowCascadeCount := 2 } some {}).result =
      .ok ⟨3, 1, 1, 0, 0⟩ ∧
    (lit.build engine { shadowCascadeCount := 2 } some {}).state.SameByName
      ((lit.reorder [2, 0, 1]).build engine { shadowCascadeCount := 2 } some {}).state := by
  have hload : ofDocument (.object (Document.Written.graph lit)) = .ok lit := by rfl
  have hjs : Json.present? (Document.Written.graph lit) "resources" =
      some (.array litResources) := by rfl
  have horder : [2, 0, 1].Perm (List.range litResources.length) := by decide
  have hbuild : (lit.build engine { shadowCascadeCount := 2 } some {}).result =
      .ok ⟨3, 1, 1, 0, 0⟩ := by decide +kernel
  obtain ⟨hreordered, hbuilds⟩ := resources_in_any_order hload hjs horder
  obtain ⟨hresult, hstate⟩ := hbuilds String (.standard _) (.standard _) (.standard _)
    { shadowCascadeCount := 2 } some ⟨3, 1, 1, 0, 0⟩
  exact ⟨hload, hjs, horder, hreordered, hresult.1 hbuild, hstate hbuild⟩

end Graph

end FrameGraph
