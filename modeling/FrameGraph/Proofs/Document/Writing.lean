import FrameGraph.Proofs.Document.Blame
import FrameGraph.Proofs.Document.WellFormed
import FrameGraph.Proofs.Number.Widening

namespace FrameGraph

/-- No object in the value has two fields of one key. -/
inductive Json.Keyed : Json → Prop where
  | null : Keyed .null
  | boolean (b : Bool) : Keyed (.boolean b)
  | natural (n : UInt64) : Keyed (.natural n)
  | real (x : Double) : Keyed (.real x)
  | text (s : String) : Keyed (.text s)
  | array {items : List Json} (h : ∀ j ∈ items, Keyed j) : Keyed (.array items)
  | object {fields : List (String × Json)} (hkeys : (fields.map Prod.fst).Nodup)
      (h : ∀ f ∈ fields, Keyed f.2) : Keyed (.object fields)

attribute [simp] Json.Keyed.null Json.Keyed.boolean Json.Keyed.natural Json.Keyed.real Json.Keyed.text

theorem Json.Keyed.nodup {o : List (String × Json)} (h : (Json.object o).Keyed) :
    (o.map Prod.fst).Nodup := by
  cases h with
  | object hkeys _ => exact hkeys

namespace Document

open Text (Vocabulary folded trimmed)

variable {α : Type}

/-- A value of the form, as a field can hold it. -/
structure Writes (form : Form α) (j : Json) (a : α) : Prop where
  stands : form j a
  present : j ≠ .null

section

variable {o : Entries} {key : String} {j : Json} {form : Form α} {a : α}

theorem lacks_of_not_mem (h : key ∉ o.map Prod.fst) : Lacks o key :=
  fun _ hj => absurd (List.mem_map_of_mem (f := Prod.fst) hj) h

theorem lacks_of_mem (hkeys : (o.map Prod.fst).Nodup) (h : (key, .null) ∈ o) : Lacks o key :=
  fun _ hj => congrArg Prod.snd (List.inj_on_of_nodup_map hkeys hj h rfl)

theorem holds_of_mem (hkeys : (o.map Prod.fst).Nodup) (h : (key, j) ∈ o) (hj : Writes form j a) :
    Holds o key form a := by
  obtain ⟨before, after, rfl⟩ := List.append_of_mem h
  refine ⟨j, ⟨hj.present, before, after, rfl, lacks_of_not_mem ?_⟩, hj.stands⟩
  intro hbefore
  rw [List.map_append, List.nodup_append] at hkeys
  exact hkeys.2.2 key hbefore key (by simp) rfl

end

namespace Written

/-- The value of what may be missing. -/
def orNull (write : α → Json) : Option α → Json
  | some a => write a
  | none => .null

/-- The first word for `a`. -/
def token [DecidableEq α] (v : Vocabulary α) (a : α) : Json :=
  .text (((v.words.find? fun w => w.2 = a).map Prod.fst).getD "")

def word (n : UInt32) : Json := .natural n.toUInt64

def single (x : Single) : Json := .real x.widened

def list (write : α → Json) (as : List α) : Json := .array (as.map write)

def flags {φ : Type} [Flag φ] [DecidableEq φ] (noun : String) (s : FlagSet φ) : Json :=
  list (token (Vocabulary.flags φ noun)) s.members

def index : Index → Json
  | .literal n => word n
  | .iteration => .text "i"

def repetition : Repetition → Json
  | .once => .null
  | .counted source => .object [("count_source", token Vocabulary.repeatCounts source)]

def extent : Extent → Entries
  | .window => [("mode", token Vocabulary.extentModes .window)]
  | .viewport => [("mode", token Vocabulary.extentModes .viewport)]
  | .fixed width height =>
    [("mode", token Vocabulary.extentModes .fixed), ("width", word width), ("height", word height)]
  | .square source =>
    [("mode", token Vocabulary.extentModes .square),
     ("size_source", token Vocabulary.sizeSources source)]

def layers : Layers → Entries
  | .fixed n => [("layers", word n), ("layers_source", .null)]
  | .counted source =>
    [("layers", .null), ("layers_source", token Vocabulary.layerCounts source)]

def body : ResourceBody → Entries
  | .image i =>
    [("import", orNull .text i.importName), ("extent", .object (extent i.extent)),
     ("format", token Vocabulary.formats i.format), ("usage", flags "texture usage" i.usage)] ++
      layers i.layers
  | .buffer b => [("size", .natural b.size), ("usage", flags "buffer usage" b.usage)]

def resource (r : Resource) : Entries :=
  [("name", .text r.name), ("type", token Vocabulary.resourceTypes r.type),
   ("condition", token Vocabulary.conditions r.condition), ("repeat", repetition r.repetition),
   ("flags", flags "resource flag" r.flags)] ++ body r.body

def access (name : String) : Access → Entries
  | .image a =>
    [("image", .text name), ("buffer", .null), ("access", token Vocabulary.imageAccesses a)]
  | .buffer a =>
    [("image", .null), ("buffer", .text name), ("access", token Vocabulary.bufferAccesses a)]

def use (u : Use) : Entries :=
  [("repeat", repetition u.repetition), ("binding", orNull index u.binding),
   ("array_index", orNull index u.arrayIndex)] ++ access u.name u.access

def slice (s : Slice) : Entries :=
  [("mip_level", word s.mipLevel), ("base_layer", index s.baseLayer),
   ("layer_count", word s.layerCount)]

def color (c : Color) : Json := list single [c.red, c.green, c.blue, c.alpha]

def depthStencil (d : DepthStencil) : Json :=
  .object [("depth", single d.depth), ("stencil", word d.stencil)]

def attachment {γ : Type} (clear : γ → Json) (a : Attachment γ) : Entries :=
  [("image", .text a.image), ("load", token Vocabulary.loadOps a.load),
   ("store", token Vocabulary.storeOps a.store), ("clear", orNull clear a.clear),
   ("slice", orNull (fun s => .object (slice s)) a.slice)]

def depthAttachment (d : DepthAttachment) : Entries :=
  ("read_only", .boolean d.readOnly) :: attachment depthStencil d.attachment

def attachments (a : Attachments) : Entries :=
  [("color", list (fun c => .object (attachment color c)) a.colors),
   ("depth", orNull (fun d => .object (depthAttachment d)) a.depth)]

def pass (d : Pass) : Entries :=
  [("name", .text d.name), ("type", token Vocabulary.passTypes d.work.type),
   ("condition", token Vocabulary.conditions d.condition), ("repeat", repetition d.repetition),
   ("flags", flags "pass flag" d.flags),
   ("domain", orNull (token Vocabulary.domains) d.work.domain?),
   ("reads", list (fun u => .object (use u)) d.reads),
   ("writes", list (fun u => .object (use u)) d.writes),
   ("attachments", .object (attachments d.attachments)), ("execute", .text d.execute)]

def outputs (o : Outputs) : Entries :=
  [("present", orNull .text o.present), ("export_images", list .text o.exportImages),
   ("export_buffers", list .text o.exportBuffers)]

def graph (g : Graph) : Entries :=
  [("version", word g.version), ("name", .text g.name),
   ("resources", list (fun r => .object (resource r)) g.resources),
   ("passes", list (fun d => .object (pass d)) g.passes), ("outputs", .object (outputs g.outputs))]

end Written

open Written hiding pass

@[simp]
theorem keyed_token [DecidableEq α] (v : Vocabulary α) (a : α) : (token v a).Keyed := .text _

@[simp]
theorem keyed_word (n : UInt32) : (word n).Keyed := .natural _

@[simp]
theorem keyed_single (x : Single) : (single x).Keyed := .real _

@[simp]
theorem keyed_orNull {write : α → Json} (h : ∀ a, (write a).Keyed) (m : Option α) :
    (orNull write m).Keyed := by
  cases m with
  | none => exact .null
  | some a => exact h a

@[simp]
theorem keyed_list {write : α → Json} (h : ∀ a, (write a).Keyed) (as : List α) :
    (list write as).Keyed := by
  refine .array ?_
  intro j hj
  obtain ⟨a, -, rfl⟩ := List.mem_map.1 hj
  exact h a

@[simp]
theorem keyed_flags {φ : Type} [Flag φ] [DecidableEq φ] (noun : String) (s : FlagSet φ) :
    (flags noun s).Keyed :=
  keyed_list (fun f => keyed_token _ f) s.members

@[simp]
theorem keyed_index (i : Index) : (index i).Keyed := by
  cases i with
  | literal n => exact .natural _
  | iteration => exact .text _

@[simp]
theorem keyed_repetition (r : Repetition) : (repetition r).Keyed := by
  cases r with
  | once => exact .null
  | counted source => exact .object (by simp) (by simp)

@[simp]
theorem keyed_extent (e : Extent) : (Json.object (extent e)).Keyed := by
  cases e <;> exact .object (by simp [extent]) (by simp [extent])

theorem keyed_resource (r : Resource) : (Json.object (resource r)).Keyed := by
  unfold resource
  cases r.body with
  | image i =>
    cases hl : i.layers <;> exact .object (by simp [body, layers, hl]) (by simp [body, layers, hl])
  | buffer b => exact .object (by simp [body]) (by simp [body])

theorem keyed_use (u : Use) : (Json.object (use u)).Keyed := by
  unfold use
  cases u.access <;> exact .object (by simp [access]) (by simp [access])

theorem keyed_slice (s : Slice) : (Json.object (slice s)).Keyed :=
  .object (by simp [slice]) (by simp [slice])

theorem keyed_color (c : Color) : (color c).Keyed := keyed_list keyed_single _

theorem keyed_depthStencil (d : DepthStencil) : (depthStencil d).Keyed :=
  .object (by simp) (by simp)

theorem keyed_attachment {γ : Type} {clear : γ → Json} (h : ∀ c, (clear c).Keyed) (a : Attachment γ) :
    (Json.object (attachment clear a)).Keyed :=
  .object (by simp [attachment]) (by simp [attachment, h, keyed_slice])

theorem keyed_depthAttachment (d : DepthAttachment) : (Json.object (depthAttachment d)).Keyed :=
  .object (by simp [depthAttachment, attachment])
    (by simp [depthAttachment, attachment, keyed_depthStencil, keyed_slice])

theorem keyed_attachments (a : Attachments) : (Json.object (attachments a)).Keyed :=
  .object (by simp [attachments])
    (by simp [attachments, keyed_attachment keyed_color, keyed_depthAttachment])

theorem keyed_pass (d : Pass) : (Json.object (Written.pass d)).Keyed :=
  .object (by simp [Written.pass]) (by simp [Written.pass, keyed_use, keyed_attachments])

theorem keyed_outputs (o : Outputs) : (Json.object (outputs o)).Keyed :=
  .object (by simp [outputs]) (by simp [outputs])

theorem keyed_graph (g : Graph) : (Json.object (graph g)).Keyed :=
  .object (by simp [graph]) (by simp [graph, keyed_resource, keyed_pass, keyed_outputs])

/-- Every value has a word, and no word has blanks around it. -/
class Complete [DecidableEq α] (v : Vocabulary α) : Prop where
  mem : ∀ a, ∃ w ∈ v.words, w.2 = a
  trimmed : ∀ w ∈ v.words, trimmed w.1 = w.1

instance : Complete Vocabulary.resourceTypes := ⟨fun a => by cases a <;> decide, by decide⟩

instance : Complete Vocabulary.passTypes := ⟨fun a => by cases a <;> decide, by decide⟩

instance : Complete Vocabulary.domains := ⟨fun a => by cases a <;> decide, by decide⟩

instance : Complete Vocabulary.conditions := ⟨fun a => by cases a <;> decide, by decide⟩

instance : Complete Vocabulary.repeatCounts := ⟨fun a => by cases a; decide, by decide⟩

instance : Complete Vocabulary.extentModes := ⟨fun a => by cases a <;> decide, by decide⟩

instance : Complete Vocabulary.sizeSources := ⟨fun a => by cases a; decide, by decide⟩

instance : Complete Vocabulary.layerCounts := ⟨fun a => by cases a; decide, by decide⟩

instance : Complete Vocabulary.imageAccesses := ⟨fun a => by cases a <;> decide, by decide⟩

instance : Complete Vocabulary.bufferAccesses := ⟨fun a => by cases a <;> decide, by decide⟩

instance : Complete Vocabulary.loadOps := ⟨fun a => by cases a <;> decide, by decide⟩

instance : Complete Vocabulary.storeOps := ⟨fun a => by cases a <;> decide, by decide⟩

instance : Complete Vocabulary.formats where
  mem a := by
    cases a with
    | explicit f => cases f <;> decide
    | _ => decide
  trimmed := by decide

instance : Complete (Vocabulary.flags ResourceFlag "resource flag") :=
  ⟨fun a => by cases a <;> decide, by decide⟩

instance : Complete (Vocabulary.flags PassFlag "pass flag") :=
  ⟨fun a => by cases a <;> decide, by decide⟩

instance : Complete (Vocabulary.flags TextureUsage "texture usage") :=
  ⟨fun a => by cases a <;> decide, by decide⟩

instance : Complete (Vocabulary.flags BufferUsage "buffer usage") :=
  ⟨fun a => by cases a <;> decide, by decide⟩

theorem writes_text (s : String) : Writes .text (.text s) s := ⟨rfl, nofun⟩

theorem writes_name {s : String} (h : s ≠ "") : Writes .name (.text s) s := ⟨⟨rfl, h⟩, nofun⟩

theorem writes_boolean (b : Bool) : Writes .boolean (.boolean b) b := ⟨rfl, nofun⟩

theorem writes_long (n : UInt64) : Writes .long (.natural n) n := ⟨rfl, nofun⟩

theorem writes_word (n : UInt32) : Writes .word (word n) n := ⟨⟨_, rfl, by simp⟩, nofun⟩

theorem writes_single {x : Single} (h : x.isNaN = false) : Writes .single (single x) x :=
  ⟨congrArg some (Single.ofDouble_widened h), nofun⟩

theorem writes_token [DecidableEq α] {v : Vocabulary α} [h : Complete v] (a : α) :
    Writes (.token v) (token v a) a := by
  obtain ⟨w, hw, hwa⟩ := h.mem a
  cases hfind : v.words.find? fun w => w.2 = a with
  | none => exact absurd hwa (by simpa using List.find?_eq_none.1 hfind w hw)
  | some x =>
    obtain rfl : x.2 = a := by simpa using List.find?_some hfind
    have hx := List.mem_of_find?_eq_some hfind
    have htoken : token v x.2 = .text x.1 := by simp [token, hfind]
    rw [htoken]
    exact ⟨⟨x.1, rfl, x.1, hx, by rw [h.trimmed x hx]⟩, nofun⟩

theorem writes_list {form : Form α} {write : α → Json} {as : List α}
    (h : ∀ a ∈ as, Writes form (write a) a) : Writes (.list form) (list write as) as where
  stands := ⟨_, rfl, List.forall₂_map_left_iff.2 (List.forall₂_same.2 fun a ha => (h a ha).stands)⟩
  present := nofun

theorem writes_object {fields : Entries → α → Prop} {o : Entries} {a : α} (h : fields o a) :
    Writes (.object fields) (.object o) a :=
  ⟨⟨o, rfl, h⟩, nofun⟩

theorem writes_index (i : Index) : Writes .index (index i) i := by
  cases i with
  | literal n => exact ⟨(writes_word n).stands, nofun⟩
  | iteration => exact ⟨⟨"i", rfl, .inr (by decide)⟩, nofun⟩

/-- The bits of a list of flags are those of its members. -/
theorem getLsb_foldl_insert {φ : Type} [Flag φ] (fs : List φ) (s : FlagSet φ)
    (i : Fin (Flag.width φ)) :
    (fs.foldl FlagSet.insert s).bits.getLsb i = (s.bits.getLsb i || fs.any (Flag.bit · == i)) := by
  induction fs generalizing s with
  | nil => simp
  | cons f fs ih => rw [List.foldl_cons, ih, FlagSet.getLsb_insert, List.any_cons, Bool.or_assoc]

/-- The members of a set make up the set when every bit is that of a flag. -/
theorem foldl_insert_members {φ : Type} [Flag φ]
    (hbits : ∀ i : Fin (Flag.width φ), ∃ f ∈ (Named.all : List φ), Flag.bit f = i) (s : FlagSet φ) :
    s.members.foldl .insert .empty = s := by
  have hbit (i : Fin (Flag.width φ)) :
      (s.members.foldl FlagSet.insert FlagSet.empty).bits.getLsb i = s.bits.getLsb i := by
    rw [getLsb_foldl_insert, FlagSet.getLsb_empty, Bool.false_or, Bool.eq_iff_iff, List.any_eq_true]
    constructor
    · intro h
      obtain ⟨f, hf, hbit⟩ := h
      have hfs : s.contains f = true := List.of_mem_filter hf
      rwa [FlagSet.contains, eq_of_beq hbit] at hfs
    · intro h
      obtain ⟨f, hf, rfl⟩ := hbits i
      exact ⟨f, List.mem_filter.2 ⟨hf, h⟩, beq_self_eq_true _⟩
  have hsame : (s.members.foldl FlagSet.insert FlagSet.empty).bits = s.bits := by
    ext i hi
    exact hbit ⟨i, hi⟩
  exact congrArg FlagSet.mk hsame

theorem writes_flags {φ : Type} [Flag φ] [DecidableEq φ] {noun : String}
    [Complete (Vocabulary.flags φ noun)]
    (hbits : ∀ i : Fin (Flag.width φ), ∃ f ∈ (Named.all : List φ), Flag.bit f = i) (s : FlagSet φ) :
    Writes (.flags noun) (flags noun s) s :=
  ⟨⟨s.members, (writes_list fun f _ => writes_token f).stands, (foldl_insert_members hbits s).symm⟩,
    nofun⟩

section

variable {o : Entries} {key : String}

theorem mayHold_of_mem {write : α → Json} {form : Form α} {m : Option α}
    (hkeys : (o.map Prod.fst).Nodup) (h : (key, orNull write m) ∈ o)
    (hwrite : ∀ a ∈ m, Writes form (write a) a) : MayHold o key form m := by
  cases m with
  | none => exact lacks_of_mem hkeys h
  | some a => exact holds_of_mem hkeys h (hwrite a rfl)

theorem holdsOr_repetition {r : Repetition} (hkeys : (o.map Prod.fst).Nodup)
    (h : (key, repetition r) ∈ o) : HoldsOr o key (.object RepetitionFields) .once r := by
  cases r with
  | once => exact .inr ⟨lacks_of_mem hkeys h, rfl⟩
  | counted source =>
    refine .inl (holds_of_mem hkeys h (writes_object (.counted ?_)))
    exact holds_of_mem (by simp) (List.mem_singleton_self _) (writes_token source)

end

theorem writes_extent {e : Extent}
    (h : ∀ width height, e = .fixed width height → width ≠ 0 ∧ height ≠ 0) :
    Writes (.object ExtentFields) (.object (extent e)) e := by
  have hkeys := (keyed_extent e).nodup
  refine writes_object ?_
  have hmode {m : ExtentMode} (hm : ("mode", token Vocabulary.extentModes m) ∈ extent e) :=
    holds_of_mem hkeys hm (writes_token m)
  cases e with
  | window =>
    exact .window (hmode (by simp [extent])) (lacks_of_not_mem (by simp [extent]))
      (lacks_of_not_mem (by simp [extent])) (lacks_of_not_mem (by simp [extent]))
  | viewport =>
    exact .viewport (hmode (by simp [extent])) (lacks_of_not_mem (by simp [extent]))
      (lacks_of_not_mem (by simp [extent])) (lacks_of_not_mem (by simp [extent]))
  | fixed width height =>
    obtain ⟨hwidth, hheight⟩ := h width height rfl
    exact .fixed (hmode (by simp [extent])) (holds_of_mem hkeys (by simp [extent]) (writes_word width))
      (holds_of_mem hkeys (by simp [extent]) (writes_word height)) hwidth hheight
      (lacks_of_not_mem (by simp [extent]))
  | square source =>
    exact .square (hmode (by simp [extent]))
      (holds_of_mem hkeys (by simp [extent]) (writes_token source))
      (lacks_of_not_mem (by simp [extent])) (lacks_of_not_mem (by simp [extent]))

theorem fields_layers {o : Entries} (hkeys : (o.map Prod.fst).Nodup) {l : Layers} (h : layers l ⊆ o)
    (hn : ∀ n, l = .fixed n → n ≠ 0) : LayersFields o l := by
  cases l with
  | fixed n =>
    exact .fixed (holds_of_mem hkeys (h (by simp [layers])) (writes_word n)) (hn n rfl)
      (lacks_of_mem hkeys (h (by simp [layers])))
  | counted source =>
    exact .counted (holds_of_mem hkeys (h (by simp [layers])) (writes_token source))
      (lacks_of_mem hkeys (h (by simp [layers])))

theorem fields_body {o : Entries} (hkeys : (o.map Prod.fst).Nodup) {b : ResourceBody} (h : body b ⊆ o)
    (hb : b.WellFormed) : BodyFields o b := by
  cases b with
  | image i =>
    have hextent : Holds o "extent" (.object ExtentFields) i.extent :=
      holds_of_mem hkeys (h (by simp [body])) (writes_extent hb.extent)
    have hformat : Holds o "format" (.token Vocabulary.formats) i.format :=
      holds_of_mem hkeys (h (by simp [body])) (writes_token i.format)
    exact
      { importName := mayHold_of_mem hkeys (h (by simp [body])) fun s _ => writes_text s
        extent := .inl hextent
        layers := fields_layers hkeys (fun f hf => h (List.mem_append_right _ hf)) hb.layers
        format := .inl hformat
        usage := .inl (holds_of_mem hkeys (h (by simp [body])) (writes_flags (by decide) i.usage))
        complete := fun hno =>
          ⟨not_lacks_of_holds hextent, not_lacks_of_holds hformat, hb.usage hno⟩ }
  | buffer b =>
    exact
      { size := holds_of_mem hkeys (h (by simp [body])) (writes_long b.size)
        usage := .inl (holds_of_mem hkeys (h (by simp [body])) (writes_flags (by decide) b.usage))
        nonempty := ⟨hb.size, hb.usage⟩ }

theorem fields_resource {r : Resource} (h : r.WellFormed) : ResourceFields (resource r) r :=
  have hkeys := (keyed_resource r).nodup
  { name := holds_of_mem hkeys (by simp [resource]) (writes_name h.name)
    type := holds_of_mem hkeys (by simp [resource]) (writes_token r.type)
    condition := .inl (holds_of_mem hkeys (by simp [resource]) (writes_token r.condition))
    repetition := holdsOr_repetition hkeys (by simp [resource])
    flags := .inl (holds_of_mem hkeys (by simp [resource]) (writes_flags (by decide) r.flags))
    body := fields_body hkeys (List.subset_append_right _ _) h.body }

section

variable {declared : List Resource}

theorem fields_access {o : Entries} (hkeys : (o.map Prod.fst).Nodup) {name : String} {a : Access}
    (h : access name a ⊆ o) : AccessFields o name a := by
  cases a with
  | image a =>
    exact .image (holds_of_mem hkeys (h (by simp [access])) (writes_text name))
      (lacks_of_mem hkeys (h (by simp [access])))
      (holds_of_mem hkeys (h (by simp [access])) (writes_token a))
  | buffer a =>
    exact .buffer (holds_of_mem hkeys (h (by simp [access])) (writes_text name))
      (lacks_of_mem hkeys (h (by simp [access])))
      (holds_of_mem hkeys (h (by simp [access])) (writes_token a))

theorem fields_use {u : Use} (h : Declared declared u.access.type u.name) :
    UseFields declared (use u) u :=
  have hkeys := (keyed_use u).nodup
  { access := fields_access hkeys (List.subset_append_right _ _)
    declared := h
    repetition := holdsOr_repetition hkeys (by simp [use])
    binding := mayHold_of_mem hkeys (by simp [use]) fun i _ => writes_index i
    arrayIndex := mayHold_of_mem hkeys (by simp [use]) fun i _ => writes_index i }

theorem fields_slice {s : Slice} (h : s.layerCount ≠ 0) : SliceFields (slice s) s :=
  have hkeys := (keyed_slice s).nodup
  { mipLevel := .inl (holds_of_mem hkeys (by simp [slice]) (writes_word s.mipLevel))
    baseLayer := .inl (holds_of_mem hkeys (by simp [slice]) (writes_index s.baseLayer))
    layerCount := .inl (holds_of_mem hkeys (by simp [slice]) (writes_word s.layerCount))
    nonempty := h }

theorem writes_color {c : Color} (h : c.IsNumber) : Writes .color (color c) c := by
  obtain ⟨hred, hgreen, hblue, halpha⟩ := h
  exact ⟨⟨_, _, _, _, rfl, (writes_single hred).stands, (writes_single hgreen).stands,
    (writes_single hblue).stands, (writes_single halpha).stands⟩, nofun⟩

theorem writes_depthStencil {d : DepthStencil} (h : d.IsNumber) :
    Writes .depthStencil (depthStencil d) d := by
  have hkeys := (keyed_depthStencil d).nodup
  have hfields : DepthStencilFields [("depth", single d.depth), ("stencil", word d.stencil)] d :=
    ⟨.inl (holds_of_mem hkeys (by simp) (writes_single h)),
      .inl (holds_of_mem hkeys (by simp) (writes_word d.stencil))⟩
  exact ⟨.inr (writes_object hfields).stands, nofun⟩

/-- The fields of an attachment, among those that its kind may add. -/
theorem fields_attachment {γ : Type} {form : Form γ} {clear : γ → Json} {clearValue : γ → ClearValue}
    {readOnly : Bool} {a : Attachment γ} {o : Entries} (hkeys : (o.map Prod.fst).Nodup)
    (hsub : attachment clear a ⊆ o) (h : (a.loose clearValue readOnly).WellFormed declared)
    (himage : a.image ≠ "") (hclear : ∀ c ∈ a.clear, Writes form (clear c) c) :
    AttachmentFields declared form o a where
  image := holds_of_mem hkeys (hsub (by simp [attachment])) (writes_name himage)
  declared := h.image
  load := holds_of_mem hkeys (hsub (by simp [attachment])) (writes_token a.load)
  store := holds_of_mem hkeys (hsub (by simp [attachment])) (writes_token a.store)
  clear := mayHold_of_mem hkeys (hsub (by simp [attachment])) hclear
  slice := mayHold_of_mem hkeys (hsub (by simp [attachment])) fun s hs =>
    writes_object (fields_slice (h.slice s hs))

theorem fields_colorAttachment {c : Attachment Color} (himage : c.image ≠ "")
    (h : (c.loose .color false).WellFormed declared) (hcolor : (c.loose .color false).OfColor) :
    ColorFields declared (attachment color c) c where
  attachment := by
    refine fields_attachment (keyed_attachment keyed_color c).nodup (List.Subset.refl _) h himage ?_
    intro v hv
    obtain ⟨_, hv', hnumber⟩ := hcolor.clear (.color v) (Option.mem_map_of_mem _ hv)
    cases hv'
    exact writes_color hnumber
  readOnly := lacks_of_not_mem (by simp [attachment])

theorem fields_depthAttachment {d : DepthAttachment} (himage : d.attachment.image ≠ "")
    (h : d.loose.WellFormed declared) (hdepth : d.loose.OfDepth) :
    DepthFields declared (depthAttachment d) d := by
  have hkeys := (keyed_depthAttachment d).nodup
  refine ⟨?_, .inl (holds_of_mem hkeys (List.mem_cons_self ..) (writes_boolean d.readOnly))⟩
  refine fields_attachment hkeys (List.subset_cons_self _ _) h himage ?_
  intro v hv
  obtain ⟨_, hv', hnumber⟩ := hdepth (.depthStencil v) (Option.mem_map_of_mem _ hv)
  cases hv'
  exact writes_depthStencil hnumber

theorem fields_attachments {a : Attachments}
    (hcolors : ∀ c ∈ a.colors, ColorFields declared (attachment color c) c)
    (hdepth : ∀ d ∈ a.depth, DepthFields declared (depthAttachment d) d) :
    AttachmentsFields declared (attachments a) a :=
  have hkeys := (keyed_attachments a).nodup
  { colors := .inl (holds_of_mem hkeys (by simp [attachments])
      (writes_list fun c hc => writes_object (hcolors c hc)))
    depth := mayHold_of_mem hkeys (by simp [attachments]) fun d hd => writes_object (hdepth d hd) }

theorem fields_work {o : Entries} (hkeys : (o.map Prod.fst).Nodup) {w : Work}
    (h : ("domain", orNull (token Vocabulary.domains) w.domain?) ∈ o) : WorkFields o w := by
  cases w with
  | graphics domain => exact holds_of_mem hkeys h (writes_token domain)
  | compute => exact lacks_of_mem hkeys h
  | transfer => exact lacks_of_mem hkeys h

theorem fields_pass {d : Pass} (hnames : ∀ r ∈ declared, r.name ≠ "") (h : d.loose.WellFormed declared) :
    PassFields declared (Written.pass d) d := by
  have himage {a : LooseAttachment} (ha : a.WellFormed declared) : a.image ≠ "" := by
    obtain ⟨r, hr, hname, -⟩ := ha.image
    exact hname ▸ hnames r hr
  have hcolors : ∀ c ∈ d.attachments.colors, ColorFields declared (attachment color c) c := by
    intro c hc
    have hloose : c.loose .color false ∈ d.loose.colors := List.mem_map_of_mem hc
    have hwell := h.attachments _ (List.mem_append_left _ hloose)
    exact fields_colorAttachment (himage hwell) hwell (h.colors _ hloose)
  have hdepth : ∀ e ∈ d.attachments.depth, DepthFields declared (depthAttachment e) e := by
    intro e he
    have hloose : e.loose ∈ d.loose.depth := Option.mem_map_of_mem _ he
    have hwell := h.attachments _ (List.mem_append_right _ (Option.mem_toList.2 hloose))
    exact fields_depthAttachment (himage hwell) hwell (h.depth _ hloose)
  have huses {us : List Use} (hus : us ⊆ d.reads ++ d.writes) :
      Writes (.list (.object (UseFields declared))) (list (fun u => .object (use u)) us) us :=
    writes_list fun u hu => writes_object (fields_use (h.uses u (hus hu)))
  have hattached (hgraphics : d.work.type = .graphics) : d.attachments.isEmpty = false := by
    have hsome := h.attached hgraphics
    simpa [Attachments.isEmpty, Pass.loose, Option.isSome_iff_ne_none, or_iff_not_imp_left] using hsome
  have hkeys := (keyed_pass d).nodup
  exact
    { name := holds_of_mem hkeys (by simp [Written.pass]) (writes_name h.name)
      type := holds_of_mem hkeys (by simp [Written.pass]) (writes_token d.work.type)
      condition := .inl (holds_of_mem hkeys (by simp [Written.pass]) (writes_token d.condition))
      repetition := holdsOr_repetition hkeys (by simp [Written.pass])
      flags := .inl (holds_of_mem hkeys (by simp [Written.pass]) (writes_flags (by decide) d.flags))
      work := fields_work hkeys (by simp [Written.pass])
      reads := .inl (holds_of_mem hkeys (by simp [Written.pass]) (huses (List.subset_append_left _ _)))
      writes := .inl (holds_of_mem hkeys (by simp [Written.pass]) (huses (List.subset_append_right _ _)))
      attachments := .inl (holds_of_mem hkeys (by simp [Written.pass])
        (writes_object (fields_attachments hcolors hdepth)))
      attached := hattached
      execute := holds_of_mem hkeys (by simp [Written.pass]) (writes_name h.execute) }

theorem fields_outputs {out : Outputs} (h : out.WellFormed declared) :
    OutputsFields declared (outputs out) out :=
  have hkeys := (keyed_outputs out).nodup
  { present := mayHold_of_mem hkeys (by simp [outputs]) fun name hname =>
      ⟨⟨rfl, h.present name hname⟩, nofun⟩
    exportImages := .inl (holds_of_mem hkeys (by simp [outputs]) (writes_list fun name hname =>
      ⟨⟨rfl, h.exportImages name hname⟩, nofun⟩))
    exportBuffers := .inl (holds_of_mem hkeys (by simp [outputs]) (writes_list fun name hname =>
      ⟨⟨rfl, h.exportBuffers name hname⟩, nofun⟩)) }

end

/-- What is written for a graph stands for it, if it is well-formed. -/
theorem form_graph {g : Graph} (h : g.loose.WellFormed) : Form.graph (.object (graph g)) g := by
  have hkeys := (keyed_graph g).nodup
  have hnames : ∀ r ∈ g.resources, r.name ≠ "" := fun r hr => (h.resources r hr).name
  have hpasses : ∀ d ∈ g.passes, PassFields g.resources (Written.pass d) d := fun d hd =>
    fields_pass hnames (h.passes d.loose (List.mem_map_of_mem hd))
  have hpassNames := h.passNames
  have hpassTable := h.passTable
  rw [Graph.loose, map_name_loose] at hpassNames hpassTable
  refine ⟨graph g, rfl, ?_⟩
  exact
    { version := ⟨holds_of_mem hkeys (by simp [graph]) (writes_word g.version), h.version⟩
      name := holds_of_mem hkeys (by simp [graph]) (writes_text g.name)
      resources := .inl (holds_of_mem hkeys (by simp [graph])
        (writes_list fun r hr => writes_object (fields_resource (h.resources r hr))))
      resourceNames := h.resourceNames
      resourceTable := h.resourceTable
      passes := .inl (holds_of_mem hkeys (by simp [graph])
        (writes_list fun d hd => writes_object (hpasses d hd)))
      passNames := hpassNames
      passTable := hpassTable
      outputs := .inl (holds_of_mem hkeys (by simp [graph])
        (writes_object (fields_outputs h.outputs))) }

end Document

/-- The document written for a graph. -/
def Graph.document (g : Graph) : Json := .object (Document.Written.graph g)

theorem Graph.wellFormed_of_ofDocument {document : Json} {g : Graph}
    (h : Graph.ofDocument document = .ok g) : g.loose.WellFormed := by
  obtain ⟨o, -, hfields⟩ := (Document.reads_graph [] document g).1 h
  exact hfields.wellFormed

/-- A well-formed graph is read back from its document. -/
theorem Graph.ofDocument_document {g : Graph} (h : g.loose.WellFormed) :
    Graph.ofDocument g.document = .ok g :=
  (Document.reads_graph [] _ g).2 (Document.form_graph h)

/-- The graphs that documents are read as are the well-formed ones. Their tables lead to what has the
name and never beyond their lists, and neither does the reading of any document. -/
theorem LooseGraph.exists_document_iff (r : LooseGraph) :
    ((∃ document g, document.Keyed ∧ Graph.ofDocument document = .ok g ∧ g.loose = r) ↔
        r.WellFormed) ∧
      (r.WellFormed →
        (∀ (name : String) (i : Nat), r.resourceTable[name]? = some i → i < r.resources.length) ∧
          ∀ (name : String) (i : Nat), r.passTable[name]? = some i → i < r.passes.length) ∧
      (r.WellFormed → ∀ g : Graph, g.loose = r → ∀ name : String,
        (∀ x, g.resource? name = some x ↔ x ∈ g.resources ∧ x.name = name) ∧
          ∀ d, g.pass? name = some d ↔ d ∈ g.passes ∧ d.name = name) ∧
      ∀ document f, Graph.ofDocument document = .error f →
        ∀ position length, f.cause ≠ .outOfBounds position length := by
  refine ⟨?_, fun h => ⟨?_, ?_⟩, ?_, fun _ _ h => Graph.fault_in_bounds h⟩
  · constructor
    · intro h
      obtain ⟨document, g, -, hg, rfl⟩ := h
      exact Graph.wellFormed_of_ofDocument hg
    · intro h
      obtain ⟨g, rfl⟩ := h.exists_graph
      exact ⟨g.document, g, Document.keyed_graph g, Graph.ofDocument_document h, rfl⟩
  · intro name i hi
    simpa using h.resourceTable.lt_length hi
  · intro name i hi
    simpa using h.passTable.lt_length hi
  · rintro h g rfl name
    have hpasses := h.passTable
    rw [Graph.loose, map_name_loose] at hpasses
    exact ⟨fun x => h.resourceTable.bind_getElem?_eq_some_iff,
      fun d => hpasses.bind_getElem?_eq_some_iff⟩

end FrameGraph
