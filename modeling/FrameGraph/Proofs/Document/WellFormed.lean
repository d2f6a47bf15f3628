import FrameGraph.Engine.Basic
import FrameGraph.Proofs.Document.Reading
import Mathlib.Data.Set.List

namespace FrameGraph

open Document

/-- An attachment of a color or of a depth. -/
structure LooseAttachment where
  image : String
  load : LoadOp
  store : StoreOp
  clear : Option ClearValue
  readOnly : Bool
  slice : Option Slice

structure LoosePass where
  name : String
  type : PassType
  flags : FlagSet PassFlag
  condition : Condition
  repetition : Repetition
  domain : Option Domain
  reads : List Use
  writes : List Use
  colors : List LooseAttachment
  depth : Option LooseAttachment
  execute : String

@[ext]
structure LooseGraph where
  version : UInt32
  name : String
  resources : List Resource
  passes : List LoosePass
  outputs : Outputs
  /-- the positions of resources by name -/
  resourceTable : Table Nat
  /-- the positions of passes by name -/
  passTable : Table Nat

/-- An attachment among those of any kind; `clearValue` wraps what it is cleared to. -/
def Attachment.loose {γ : Type} (clearValue : γ → ClearValue) (readOnly : Bool) (a : Attachment γ) :
    LooseAttachment where
  image := a.image
  load := a.load
  store := a.store
  clear := a.clear.map clearValue
  readOnly := readOnly
  slice := a.slice

def DepthAttachment.loose (d : DepthAttachment) : LooseAttachment :=
  d.attachment.loose .depthStencil d.readOnly

def Pass.loose (d : Pass) : LoosePass where
  name := d.name
  type := d.work.type
  flags := d.flags
  condition := d.condition
  repetition := d.repetition
  domain := d.work.domain?
  reads := d.reads
  writes := d.writes
  colors := d.attachments.colors.map (Attachment.loose .color false)
  depth := d.attachments.depth.map DepthAttachment.loose
  execute := d.execute

def Graph.loose (g : Graph) : LooseGraph where
  version := g.version
  name := g.name
  resources := g.resources
  passes := g.passes.map Pass.loose
  outputs := g.outputs
  resourceTable := g.resourceNames
  passTable := g.passNames

theorem map_name_loose (ds : List Pass) : (ds.map Pass.loose).map (·.name) = ds.map (·.name) := by
  simp [Pass.loose]

/-- The image has an area and layers, and unless it is imported it is used for something. -/
structure Image.WellFormed (i : Image) : Prop where
  extent : ∀ width height, i.extent = .fixed width height → width ≠ 0 ∧ height ≠ 0
  layers : ∀ n, i.layers = .fixed n → n ≠ 0
  usage : i.importName = none → i.usage.isEmpty = false

structure Buffer.WellFormed (b : Buffer) : Prop where
  size : b.size ≠ 0
  usage : b.usage.isEmpty = false

def ResourceBody.WellFormed : ResourceBody → Prop
  | .image i => i.WellFormed
  | .buffer b => b.WellFormed

structure Resource.WellFormed (r : Resource) : Prop where
  name : r.name ≠ ""
  body : r.body.WellFormed

/-- No component is a NaN. -/
def Color.IsNumber (c : Color) : Prop :=
  c.red.isNaN = false ∧ c.green.isNaN = false ∧ c.blue.isNaN = false ∧ c.alpha.isNaN = false

def DepthStencil.IsNumber (d : DepthStencil) : Prop := d.depth.isNaN = false

namespace LooseAttachment

/-- The attachment names a declared image and binds some layers of it. -/
structure WellFormed (declared : List Resource) (a : LooseAttachment) : Prop where
  image : Declared declared .image a.image
  slice : ∀ s ∈ a.slice, s.layerCount ≠ 0

/-- The attachment can be that of a color. -/
structure OfColor (a : LooseAttachment) : Prop where
  readOnly : a.readOnly = false
  clear : ∀ v ∈ a.clear, ∃ c : Color, v = .color c ∧ c.IsNumber

/-- The attachment can be that of a depth. -/
def OfDepth (a : LooseAttachment) : Prop :=
  ∀ v ∈ a.clear, ∃ d : DepthStencil, v = .depthStencil d ∧ d.IsNumber

end LooseAttachment

/-- What a pass names is declared, and graphics alone has a domain and must have an attachment. -/
structure LoosePass.WellFormed (declared : List Resource) (p : LoosePass) : Prop where
  name : p.name ≠ ""
  execute : p.execute ≠ ""
  domain : p.domain.isSome = true ↔ p.type = .graphics
  attached : p.type = .graphics → p.colors ≠ [] ∨ p.depth ≠ none
  uses : ∀ u ∈ p.reads ++ p.writes, Declared declared u.access.type u.name
  attachments : ∀ a ∈ p.colors ++ p.depth.toList, a.WellFormed declared
  colors : ∀ a ∈ p.colors, a.OfColor
  depth : ∀ a ∈ p.depth, a.OfDepth

structure Outputs.WellFormed (declared : List Resource) (o : Outputs) : Prop where
  present : ∀ name ∈ o.present, Declared declared .image name
  exportImages : ∀ name ∈ o.exportImages, Declared declared .image name
  exportBuffers : ∀ name ∈ o.exportBuffers, Declared declared .buffer name

structure LooseGraph.WellFormed (g : LooseGraph) : Prop where
  version : g.version = 1
  resources : ∀ r ∈ g.resources, r.WellFormed
  resourceNames : (g.resources.map (·.name)).Nodup
  resourceTable : Tabulates g.resourceTable (g.resources.map (·.name))
  passes : ∀ p ∈ g.passes, p.WellFormed g.resources
  passNames : (g.passes.map (·.name)).Nodup
  passTable : Tabulates g.passTable (g.passes.map (·.name))
  outputs : g.outputs.WellFormed g.resources

/-- Members that are all images of something are the images of a list. -/
theorem exists_map_eq {α β : Type} {f : α → β} {bs : List β} (h : ∀ b ∈ bs, ∃ a, f a = b) :
    ∃ as : List α, as.map f = bs := by
  have hrange : bs ∈ Set.range (List.map f) := by
    rw [Set.range_list_map]
    exact h
  exact hrange

theorem LooseAttachment.OfColor.exists_attachment {a : LooseAttachment} (h : a.OfColor) :
    ∃ c : Attachment Color, c.loose .color false = a := by
  obtain ⟨image, loadOp, storeOp, clear, readOnly, slice⟩ := a
  obtain rfl : readOnly = false := h.readOnly
  cases clear with
  | none => exact ⟨⟨image, loadOp, storeOp, none, slice⟩, rfl⟩
  | some v =>
    obtain ⟨c, rfl, -⟩ := h.clear v rfl
    exact ⟨⟨image, loadOp, storeOp, some c, slice⟩, rfl⟩

theorem LooseAttachment.OfDepth.exists_attachment {a : LooseAttachment} (h : a.OfDepth) :
    ∃ d : DepthAttachment, d.loose = a := by
  obtain ⟨image, loadOp, storeOp, clear, readOnly, slice⟩ := a
  cases clear with
  | none => exact ⟨⟨⟨image, loadOp, storeOp, none, slice⟩, readOnly⟩, rfl⟩
  | some v =>
    obtain ⟨d, rfl, -⟩ := h v rfl
    exact ⟨⟨⟨image, loadOp, storeOp, some d, slice⟩, readOnly⟩, rfl⟩

theorem Work.exists_of_domain {type : PassType} {domain : Option Domain}
    (h : domain.isSome = true ↔ type = .graphics) : ∃ w : Work, w.type = type ∧ w.domain? = domain := by
  cases domain with
  | some domain => exact ⟨.graphics domain, (h.1 rfl).symm, rfl⟩
  | none =>
    cases type with
    | graphics => exact absurd (h.2 rfl) nofun
    | compute => exact ⟨.compute, rfl, rfl⟩
    | transfer => exact ⟨.transfer, rfl, rfl⟩

theorem LoosePass.WellFormed.exists_pass {declared : List Resource} {p : LoosePass}
    (h : p.WellFormed declared) : ∃ d : Pass, d.loose = p := by
  obtain ⟨name, type, flags, condition, repetition, domain, reads, writes, colors, depth, execute⟩ := p
  obtain ⟨work, rfl, rfl⟩ := Work.exists_of_domain h.domain
  obtain ⟨colors, rfl⟩ := exists_map_eq fun a ha => (h.colors a ha).exists_attachment
  have hdepth : ∃ d : Option DepthAttachment, d.map DepthAttachment.loose = depth := by
    cases depth with
    | none => exact ⟨none, rfl⟩
    | some a =>
      obtain ⟨d, rfl⟩ := (h.depth a rfl).exists_attachment
      exact ⟨some d, rfl⟩
  obtain ⟨depth, rfl⟩ := hdepth
  exact ⟨⟨name, work, flags, condition, repetition, reads, writes, ⟨colors, depth⟩, execute⟩, rfl⟩

/-- A well-formed loose graph is a graph. -/
theorem LooseGraph.WellFormed.exists_graph {r : LooseGraph} (h : r.WellFormed) :
    ∃ g : Graph, g.loose = r := by
  obtain ⟨passes, hpasses⟩ := exists_map_eq fun p hp => (h.passes p hp).exists_pass
  exact ⟨⟨r.version, r.name, r.resources, passes, r.outputs, r.resourceTable, r.passTable⟩,
    LooseGraph.ext rfl rfl rfl hpasses rfl rfl rfl⟩

namespace Document

variable {o : Entries} {declared : List Resource}

theorem isNaN_of_single {j : Json} {x : Single} (h : Form.single j x) : x.isNaN = false := by
  cases j with
  | natural n =>
    obtain rfl := Option.some.inj h
    exact Single.isNaN_ofCode ..
  | real d =>
    obtain rfl := Option.some.inj h
    exact Single.isNaN_ofCode ..
  | _ => exact absurd h nofun

/-- Each member of a list has the form of its members. -/
theorem exists_of_mem {α : Type} {key : String} {form : Form α} {as : List α}
    (h : HoldsOr o key (.list form) [] as) {a : α} (ha : a ∈ as) : ∃ j, form j a := by
  rcases h with ⟨j, -, js, -, has⟩ | ⟨-, rfl⟩
  · obtain ⟨x, -, hx⟩ := exists_mem_of_forall₂ has ha
    exact ⟨x, hx⟩
  · exact absurd ha List.not_mem_nil

theorem exists_of_mayHold {α : Type} {key : String} {form : Form α} {m : Option α}
    (h : MayHold o key form m) {a : α} (ha : a ∈ m) : ∃ j, form j a := by
  obtain rfl := Option.mem_def.1 ha
  obtain ⟨j, -, hj⟩ := h
  exact ⟨j, hj⟩

theorem ImageFields.wellFormed {i : Image} (h : ImageFields o i) : i.WellFormed := by
  refine ⟨?_, ?_, fun himport => (h.complete himport).2.2⟩
  · intro width height hfixed
    rcases h.extent with ⟨j, -, fields, -, hfields⟩ | ⟨-, hwindow⟩
    · rw [hfixed] at hfields
      cases hfields with
      | fixed _ _ _ hwidth hheight _ => exact ⟨hwidth, hheight⟩
    · rw [hfixed] at hwindow
      exact absurd hwindow nofun
  · intro n hfixed
    have hlayers := h.layers
    rw [hfixed] at hlayers
    cases hlayers with
    | fixed _ hn _ => exact hn
    | single => decide

theorem ResourceFields.wellFormed {r : Resource} (h : ResourceFields o r) : r.WellFormed := by
  obtain ⟨j, -, -, hname⟩ := h.name
  refine ⟨hname, ?_⟩
  have hbody := h.body
  unfold ResourceBody.WellFormed
  cases hr : r.body with
  | image i =>
    rw [hr] at hbody
    exact ImageFields.wellFormed hbody
  | buffer b =>
    rw [hr] at hbody
    obtain ⟨-, -, hsize, husage⟩ := hbody
    exact ⟨hsize, husage⟩

theorem isNumber_of_color {j : Json} {c : Color} (h : Form.color j c) : c.IsNumber := by
  obtain ⟨_, _, _, _, -, hr, hg, hb, ha⟩ := h
  exact ⟨isNaN_of_single hr, isNaN_of_single hg, isNaN_of_single hb, isNaN_of_single ha⟩

theorem isNumber_of_depthStencil {j : Json} {d : DepthStencil} (h : Form.depthStencil j d) :
    d.IsNumber := by
  rcases h with ⟨hdepth, -⟩ | ⟨fields, -, hfields⟩
  · exact isNaN_of_single hdepth
  · rcases hfields.depth with ⟨_, -, hdepth⟩ | ⟨-, hdefault⟩
    · exact isNaN_of_single hdepth
    · unfold DepthStencil.IsNumber
      rw [hdefault]
      exact Single.isNaN_ofCode ..

theorem AttachmentFields.wellFormed {γ : Type} {clear : Form γ} {a : Attachment γ}
    (h : AttachmentFields declared clear o a) (clearValue : γ → ClearValue) (readOnly : Bool) :
    (a.loose clearValue readOnly).WellFormed declared := by
  refine ⟨h.declared, ?_⟩
  intro s hs
  obtain ⟨_, _, -, hslice⟩ := exists_of_mayHold h.slice hs
  exact hslice.nonempty

theorem ColorFields.ofColor {a : Attachment Color} (h : ColorFields declared o a) :
    (a.loose .color false).OfColor := by
  refine ⟨rfl, ?_⟩
  intro v hv
  obtain ⟨c, hc, rfl⟩ := Option.map_eq_some_iff.1 hv
  obtain ⟨_, hform⟩ := exists_of_mayHold h.attachment.clear hc
  exact ⟨c, rfl, isNumber_of_color hform⟩

theorem DepthFields.ofDepth {d : DepthAttachment} (h : DepthFields declared o d) :
    d.loose.OfDepth := by
  intro v hv
  obtain ⟨c, hc, rfl⟩ := Option.map_eq_some_iff.1 hv
  obtain ⟨_, hform⟩ := exists_of_mayHold h.attachment.clear hc
  exact ⟨c, rfl, isNumber_of_depthStencil hform⟩

/-- The fields of the attachments, or no attachments at all. -/
theorem PassFields.exists_attachments {d : Pass} (h : PassFields declared o d) :
    (∀ a ∈ d.attachments.colors, ∃ fields, ColorFields declared fields a) ∧
      ∀ a ∈ d.attachments.depth, ∃ fields, DepthFields declared fields a := by
  rcases h.attachments with ⟨_, -, fields, -, hfields⟩ | ⟨-, hnone⟩
  · constructor
    · intro a ha
      obtain ⟨_, fields, -, hcolor⟩ := exists_of_mem hfields.colors ha
      exact ⟨fields, hcolor⟩
    · intro a ha
      obtain ⟨_, fields, -, hdepth⟩ := exists_of_mayHold hfields.depth ha
      exact ⟨fields, hdepth⟩
  · rw [hnone]
    exact ⟨fun a ha => absurd ha List.not_mem_nil, fun a ha => absurd ha nofun⟩

theorem PassFields.wellFormed {d : Pass} (h : PassFields declared o d) :
    d.loose.WellFormed declared := by
  obtain ⟨hcolors, hdepth⟩ := h.exists_attachments
  obtain ⟨_, -, -, hname⟩ := h.name
  obtain ⟨_, -, -, hexecute⟩ := h.execute
  refine
    { name := hname
      execute := hexecute
      domain := d.work.domain?_isSome_iff
      attached := ?_
      uses := ?_
      attachments := ?_
      colors := ?_
      depth := ?_ }
  · intro hgraphics
    have hsome := h.attached hgraphics
    simp only [Attachments.isEmpty, Bool.and_eq_false_iff, List.isEmpty_eq_false_iff,
      Option.isNone_eq_false_iff, Option.isSome_iff_ne_none] at hsome
    simpa [Pass.loose] using hsome
  · intro u hu
    have hfields : ∃ j, Form.object (UseFields declared) j u := by
      rcases List.mem_append.1 hu with hread | hwrite
      · exact exists_of_mem h.reads hread
      · exact exists_of_mem h.writes hwrite
    obtain ⟨_, _, -, huse⟩ := hfields
    exact huse.declared
  · intro a ha
    rcases List.mem_append.1 ha with hcolor | hdepth'
    · obtain ⟨c, hc, rfl⟩ := List.mem_map.1 hcolor
      obtain ⟨_, hfields⟩ := hcolors c hc
      exact hfields.attachment.wellFormed _ _
    · obtain ⟨e, he, rfl⟩ := Option.map_eq_some_iff.1 (Option.mem_toList.1 hdepth')
      obtain ⟨_, hfields⟩ := hdepth e he
      exact hfields.attachment.wellFormed _ _
  · intro a ha
    obtain ⟨c, hc, rfl⟩ := List.mem_map.1 ha
    obtain ⟨_, hfields⟩ := hcolors c hc
    exact hfields.ofColor
  · intro a ha
    obtain ⟨e, he, rfl⟩ := Option.map_eq_some_iff.1 ha
    obtain ⟨_, hfields⟩ := hdepth e he
    exact hfields.ofDepth

theorem OutputsFields.wellFormed {out : Outputs} (h : OutputsFields declared o out) :
    out.WellFormed declared where
  present := by
    intro name hname
    obtain ⟨_, -, hdeclared⟩ := exists_of_mayHold h.present hname
    exact hdeclared
  exportImages := by
    intro name hname
    obtain ⟨_, -, hdeclared⟩ := exists_of_mem h.exportImages hname
    exact hdeclared
  exportBuffers := by
    intro name hname
    obtain ⟨_, -, hdeclared⟩ := exists_of_mem h.exportBuffers hname
    exact hdeclared

/-- No outputs are well-formed outputs. -/
theorem wellFormed_none : Outputs.none.WellFormed declared :=
  ⟨nofun, fun _ h => absurd h List.not_mem_nil, fun _ h => absurd h List.not_mem_nil⟩

theorem GraphFields.wellFormed {g : Graph} (h : GraphFields o g) : g.loose.WellFormed where
  version := h.version.2
  resources := by
    intro r hr
    obtain ⟨_, _, -, hfields⟩ := exists_of_mem h.resources hr
    exact hfields.wellFormed
  resourceNames := h.resourceNames
  resourceTable := h.resourceTable
  passes := by
    intro p hp
    obtain ⟨d, hd, rfl⟩ := List.mem_map.1 hp
    obtain ⟨_, _, -, hfields⟩ := exists_of_mem h.passes hd
    exact hfields.wellFormed
  passNames := by
    rw [Graph.loose, map_name_loose]
    exact h.passNames
  passTable := by
    rw [Graph.loose, map_name_loose]
    exact h.passTable
  outputs := by
    rcases h.outputs with ⟨_, -, _, -, hfields⟩ | ⟨-, hnone⟩
    · exact hfields.wellFormed
    · show g.outputs.WellFormed _
      rw [hnone]
      exact wellFormed_none

end Document

end FrameGraph
