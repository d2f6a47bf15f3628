import FrameGraph.Proofs.Document.Writing

namespace FrameGraph

variable {α γ : Type}

/-- The values with the property are equal exactly if they have the same canonical form. -/
def ComparedBy [BEq α] (P : α → Prop) (canonical : α → α) : Prop :=
  ∀ x y, P x → P y → ((x == y) = true ↔ canonical x = canonical y)

theorem ComparedBy.option [BEq α] {P : α → Prop} {f : α → α} (h : ComparedBy P f) :
    ComparedBy (fun o : Option α => ∀ x ∈ o, P x) (Option.map f) := by
  intro x y hx hy
  cases x with
  | none => cases y <;> simp
  | some a =>
    cases y with
    | none => simp
    | some b => simpa using h a b (hx a rfl) (hy b rfl)

theorem ComparedBy.list [BEq α] {P : α → Prop} {f : α → α} (h : ComparedBy P f) :
    ComparedBy (fun l : List α => ∀ x ∈ l, P x) (List.map f) := by
  intro as bs has hbs
  induction as generalizing bs with
  | nil => cases bs <;> simp
  | cons a as ih =>
    cases bs with
    | nil => simp
    | cons b bs =>
      obtain ⟨ha, has⟩ := List.forall_mem_cons.1 has
      obtain ⟨hb, hbs⟩ := List.forall_mem_cons.1 hbs
      rw [List.cons_beq_cons, Bool.and_eq_true, h a b ha hb, ih bs has hbs, List.map_cons,
        List.map_cons, List.cons.injEq]

/-- Equality of lists is equality of their members. -/
theorem list_beq_iff [BEq α] {as bs : List α} :
    (as == bs) = true ↔ List.Forall₂ (fun a b => (a == b) = true) as bs := by
  induction as generalizing bs with
  | nil => cases bs <;> simp
  | cons a as ih =>
    cases bs with
    | nil => simp
    | cons b bs => rw [List.cons_beq_cons, Bool.and_eq_true, ih, List.forall₂_cons]

/-- The number without a sign if it is a zero. -/
def Single.canonical (x : Single) : Single := { x with negative := x.negative && x.code != 0 }

theorem Single.comparedBy : ComparedBy (fun x : Single => x.isNaN = false) canonical := by
  intro x y hx hy
  have hbeq : (x == y) = Single.beq x y := rfl
  obtain ⟨m, i, hi⟩ := x
  obtain ⟨n, j, hj⟩ := y
  rw [hbeq, Single.beq, hx, hy, canonical, canonical, Single.mk.injEq]
  by_cases hcode : i = j
  · subst hcode
    by_cases hzero : i = 0
    · simp [hzero]
    · have hne : (i != 0) = true := bne_iff_ne.2 hzero
      simp [hzero, hne]
  · simp [hcode]

def Color.canonical (c : Color) : Color :=
  ⟨c.red.canonical, c.green.canonical, c.blue.canonical, c.alpha.canonical⟩

theorem Color.comparedBy : ComparedBy IsNumber canonical := by
  intro x y hx hy
  obtain ⟨hred, hgreen, hblue, halpha⟩ := hx
  obtain ⟨hred', hgreen', hblue', halpha'⟩ := hy
  have hbeq : (x == y) = (x.red == y.red && (x.green == y.green &&
    (x.blue == y.blue && x.alpha == y.alpha))) := rfl
  rw [hbeq, canonical, canonical, Color.mk.injEq]
  simp only [Bool.and_eq_true, Single.comparedBy _ _ hred hred', Single.comparedBy _ _ hgreen hgreen',
    Single.comparedBy _ _ hblue hblue', Single.comparedBy _ _ halpha halpha']

def DepthStencil.canonical (d : DepthStencil) : DepthStencil := { d with depth := d.depth.canonical }

theorem DepthStencil.comparedBy : ComparedBy IsNumber canonical := by
  intro x y hx hy
  have hbeq : (x == y) = (x.depth == y.depth && x.stencil == y.stencil) := rfl
  rw [hbeq, canonical, canonical, DepthStencil.mk.injEq]
  simp only [Bool.and_eq_true, Single.comparedBy _ _ hx hy, beq_iff_eq]

theorem Attachment.beq_iff [BEq γ] {a b : Attachment γ} :
    (a == b) = true ↔ a.image = b.image ∧ a.load = b.load ∧ a.store = b.store ∧
      (a.clear == b.clear) = true ∧ a.slice = b.slice := by
  have hbeq : (a == b) = (a.image == b.image && (a.load == b.load && (a.store == b.store &&
    (a.clear == b.clear && a.slice == b.slice)))) := rfl
  rw [hbeq]
  simp only [Bool.and_eq_true, beq_iff_eq]

/-- The attachment cleared to another value. -/
def Attachment.mapClear (f : γ → γ) (a : Attachment γ) : Attachment γ :=
  { a with clear := a.clear.map f }

theorem ComparedBy.attachment [BEq γ] {P : γ → Prop} {f : γ → γ} (h : ComparedBy P f) :
    ComparedBy (fun a : Attachment γ => ∀ v ∈ a.clear, P v) (Attachment.mapClear f) := by
  intro a b ha hb
  rw [Attachment.beq_iff, h.option _ _ ha hb, Attachment.mapClear, Attachment.mapClear,
    Attachment.mk.injEq]

theorem DepthAttachment.beq_iff {a b : DepthAttachment} :
    (a == b) = true ↔ (a.attachment == b.attachment) = true ∧ a.readOnly = b.readOnly := by
  have hbeq : (a == b) = (a.attachment == b.attachment && a.readOnly == b.readOnly) := rfl
  rw [hbeq]
  simp only [Bool.and_eq_true, beq_iff_eq]

def DepthAttachment.canonical (d : DepthAttachment) : DepthAttachment :=
  { d with attachment := d.attachment.mapClear .canonical }

theorem DepthAttachment.comparedBy :
    ComparedBy (fun d : DepthAttachment => ∀ v ∈ d.attachment.clear, v.IsNumber) canonical := by
  intro a b ha hb
  rw [beq_iff, DepthStencil.comparedBy.attachment _ _ ha hb, canonical, canonical,
    DepthAttachment.mk.injEq]

theorem Attachments.beq_iff {a b : Attachments} :
    (a == b) = true ↔ (a.colors == b.colors) = true ∧ (a.depth == b.depth) = true := by
  have hbeq : (a == b) = (a.colors == b.colors && a.depth == b.depth) := rfl
  rw [hbeq, Bool.and_eq_true]

def Attachments.canonical (a : Attachments) : Attachments where
  colors := a.colors.map (Attachment.mapClear .canonical)
  depth := a.depth.map .canonical

/-- The attachments are cleared to no NaN. -/
structure Attachments.ClearToNumbers (a : Attachments) : Prop where
  colors : ∀ c ∈ a.colors, ∀ v ∈ c.clear, v.IsNumber
  depth : ∀ d ∈ a.depth, ∀ v ∈ d.attachment.clear, v.IsNumber

theorem Attachments.comparedBy : ComparedBy ClearToNumbers canonical := by
  intro a b ha hb
  rw [beq_iff, Color.comparedBy.attachment.list _ _ ha.colors hb.colors,
    DepthAttachment.comparedBy.option _ _ ha.depth hb.depth, canonical, canonical,
    Attachments.mk.injEq]

theorem Pass.beq_iff {d e : Pass} :
    (d == e) = true ↔ d.name = e.name ∧ d.work = e.work ∧ d.flags = e.flags ∧
      d.condition = e.condition ∧ d.repetition = e.repetition ∧ d.reads = e.reads ∧
      d.writes = e.writes ∧ (d.attachments == e.attachments) = true ∧ d.execute = e.execute := by
  have hbeq : (d == e) = (d.name == e.name && (d.work == e.work && (d.flags == e.flags &&
    (d.condition == e.condition && (d.repetition == e.repetition && (d.reads == e.reads &&
    (d.writes == e.writes && (d.attachments == e.attachments && d.execute == e.execute)))))))) := rfl
  rw [hbeq]
  simp only [Bool.and_eq_true, beq_iff_eq]

def Pass.canonical (d : Pass) : Pass := { d with attachments := d.attachments.canonical }

theorem Pass.comparedBy :
    ComparedBy (fun d : Pass => d.attachments.ClearToNumbers) canonical := by
  intro d e hd he
  rw [beq_iff, Attachments.comparedBy _ _ hd he, canonical, canonical, Pass.mk.injEq]

namespace Graph

theorem beq_iff {a b : Graph} :
    (a == b) = true ↔ a.version = b.version ∧ a.name = b.name ∧ a.resources = b.resources ∧
      (a.passes == b.passes) = true ∧ a.outputs = b.outputs ∧ a.resourceNames = b.resourceNames ∧
      a.passNames = b.passNames := by
  have hbeq : (a == b) = (a.version == b.version && (a.name == b.name &&
    (a.resources == b.resources && (a.passes == b.passes && (a.outputs == b.outputs &&
    (a.resourceNames == b.resourceNames && a.passNames == b.passNames)))))) := rfl
  rw [hbeq]
  simp only [Bool.and_eq_true, beq_iff_eq]

def canonical (g : Graph) : Graph := { g with passes := g.passes.map .canonical }

/-- No pass clears an attachment to a NaN. -/
def ClearsToNumbers (g : Graph) : Prop := ∀ d ∈ g.passes, d.attachments.ClearToNumbers

theorem comparedBy : ComparedBy ClearsToNumbers canonical := by
  intro a b ha hb
  rw [beq_iff, Pass.comparedBy.list _ _ ha hb, canonical, canonical, Graph.mk.injEq]

/-- Passes that are equal have the same names. -/
theorem map_name_of_beq {ps qs : List Pass} (h : (ps == qs) = true) :
    ps.map (·.name) = qs.map (·.name) := by
  rw [← List.forall₂_eq_eq_eq, List.forall₂_map_left_iff, List.forall₂_map_right_iff]
  exact (list_beq_iff.1 h).imp fun d e hde => (Pass.beq_iff.1 hde).1

theorem tabulates_of_ofDocument {document : Json} {g : Graph} (h : ofDocument document = .ok g) :
    Tabulates g.resourceNames (g.resources.map (·.name)) ∧
      Tabulates g.passNames (g.passes.map (·.name)) := by
  obtain ⟨fields, rfl, hfields⟩ := (ofDocument_eq_ok_iff document g).1 h
  exact ⟨hfields.resourceTable, hfields.passTable⟩

/-- The tables of a graph that was read follow from its resources and passes, so they tell no two such
graphs apart. -/
theorem beq_iff_of_ofDocument {da db : Json} {a b : Graph} (ha : ofDocument da = .ok a)
    (hb : ofDocument db = .ok b) :
    (a == b) = true ↔ a.version = b.version ∧ a.name = b.name ∧ a.resources = b.resources ∧
      (a.passes == b.passes) = true ∧ a.outputs = b.outputs := by
  obtain ⟨haresources, hapasses⟩ := tabulates_of_ofDocument ha
  obtain ⟨hbresources, hbpasses⟩ := tabulates_of_ofDocument hb
  rw [beq_iff]
  constructor
  · intro h
    obtain ⟨hversion, hname, hresources, hpasses, houtputs, -⟩ := h
    exact ⟨hversion, hname, hresources, hpasses, houtputs⟩
  · intro h
    obtain ⟨hversion, hname, hresources, hpasses, houtputs⟩ := h
    have hresourceNames : a.resourceNames = b.resourceNames := by
      rw [← hresources] at hbresources
      exact haresources.unique hbresources
    have hpassNames : a.passNames = b.passNames := by
      rw [← map_name_of_beq hpasses] at hbpasses
      exact hapasses.unique hbpasses
    exact ⟨hversion, hname, hresources, hpasses, houtputs, hresourceNames, hpassNames⟩

/-- The clear values of a document are numbers. -/
theorem clearsToNumbers_of_ofDocument {document : Json} {g : Graph}
    (h : ofDocument document = .ok g) : g.ClearsToNumbers := by
  have hg := wellFormed_of_ofDocument h
  intro d hd
  have hpass := hg.passes d.loose (List.mem_map_of_mem hd)
  constructor
  · intro a ha v hv
    have hcolor := hpass.colors _ (List.mem_map_of_mem ha)
    obtain ⟨c, hc, hnumber⟩ := hcolor.clear (.color v) (Option.mem_map_of_mem _ hv)
    obtain rfl := ClearValue.color.inj hc
    exact hnumber
  · intro a ha v hv
    have hdepth := hpass.depth _ (Option.mem_map_of_mem _ ha)
    obtain ⟨s, hs, hnumber⟩ := hdepth (.depthStencil v) (Option.mem_map_of_mem _ hv)
    obtain rfl := ClearValue.depthStencil.inj hs
    exact hnumber

end Graph

/-- The attachments agree in every field; what they are cleared to is compared as numbers. -/
structure LooseAttachment.Equals (a b : LooseAttachment) : Prop where
  image : a.image = b.image
  load : a.load = b.load
  store : a.store = b.store
  clear : (a.clear == b.clear) = true
  readOnly : a.readOnly = b.readOnly
  slice : a.slice = b.slice

structure LoosePass.Equals (p q : LoosePass) : Prop where
  name : p.name = q.name
  type : p.type = q.type
  flags : p.flags = q.flags
  condition : p.condition = q.condition
  repetition : p.repetition = q.repetition
  domain : p.domain = q.domain
  reads : p.reads = q.reads
  writes : p.writes = q.writes
  colors : List.Forall₂ LooseAttachment.Equals p.colors q.colors
  depth : Option.Rel LooseAttachment.Equals p.depth q.depth
  execute : p.execute = q.execute

/-- The graphs agree in every field, and so do their tables. -/
structure LooseGraph.Equals (g h : LooseGraph) : Prop where
  version : g.version = h.version
  name : g.name = h.name
  resources : g.resources = h.resources
  passes : List.Forall₂ LoosePass.Equals g.passes h.passes
  outputs : g.outputs = h.outputs
  resourceTable : g.resourceTable = h.resourceTable
  passTable : g.passTable = h.passTable

theorem Attachment.loose_equals_iff [BEq γ] {clearValue : γ → ClearValue}
    (hvalue : ∀ v w, (clearValue v == clearValue w) = (v == w)) {a b : Attachment γ}
    {readOnly readOnly' : Bool} :
    (a.loose clearValue readOnly).Equals (b.loose clearValue readOnly') ↔
      (a == b) = true ∧ readOnly = readOnly' := by
  have hclear : (a.clear.map clearValue == b.clear.map clearValue) = (a.clear == b.clear) := by
    cases a.clear <;> cases b.clear <;> simp [hvalue]
  rw [beq_iff]
  constructor
  · intro h
    exact ⟨⟨h.image, h.load, h.store, hclear ▸ h.clear, h.slice⟩, h.readOnly⟩
  · intro h
    obtain ⟨⟨himage, hload, hstore, hvalues, hslice⟩, hreadOnly⟩ := h
    exact ⟨himage, hload, hstore, hclear.trans hvalues, hreadOnly, hslice⟩

theorem DepthAttachment.loose_equals_iff {d e : DepthAttachment} :
    d.loose.Equals e.loose ↔ (d == e) = true := by
  have hvalue (v w : DepthStencil) :
      (ClearValue.depthStencil v == ClearValue.depthStencil w) = (v == w) := rfl
  exact (Attachment.loose_equals_iff hvalue).trans beq_iff.symm

theorem Work.eq_iff {v w : Work} : v = w ↔ v.type = w.type ∧ v.domain? = w.domain? := by
  cases v <;> cases w <;> simp [type, domain?]

theorem Pass.loose_equals_iff {d e : Pass} : d.loose.Equals e.loose ↔ (d == e) = true := by
  have hcolors : List.Forall₂ LooseAttachment.Equals d.loose.colors e.loose.colors ↔
      (d.attachments.colors == e.attachments.colors) = true := by
    rw [loose, loose, List.forall₂_map_left_iff, List.forall₂_map_right_iff, list_beq_iff]
    have hvalue (v w : Color) : (ClearValue.color v == ClearValue.color w) = (v == w) := rfl
    have hcolor (a b : Attachment Color) :
        (a.loose .color false).Equals (b.loose .color false) ↔ (a == b) = true :=
      (Attachment.loose_equals_iff hvalue).trans (and_iff_left rfl)
    simp only [hcolor]
  have hdepth : Option.Rel LooseAttachment.Equals d.loose.depth e.loose.depth ↔
      (d.attachments.depth == e.attachments.depth) = true := by
    unfold loose
    cases d.attachments.depth <;> cases e.attachments.depth <;>
      simp [DepthAttachment.loose_equals_iff]
  rw [beq_iff, Attachments.beq_iff, ← hcolors, ← hdepth, Work.eq_iff]
  constructor
  · intro h
    exact ⟨h.name, ⟨h.type, h.domain⟩, h.flags, h.condition, h.repetition, h.reads, h.writes,
      ⟨h.colors, h.depth⟩, h.execute⟩
  · intro h
    obtain ⟨hname, ⟨htype, hdomain⟩, hflags, hcondition, hrepetition, hreads, hwrites,
      ⟨hcolors, hdepth⟩, hexecute⟩ := h
    exact ⟨hname, htype, hflags, hcondition, hrepetition, hdomain, hreads, hwrites, hcolors, hdepth,
      hexecute⟩

namespace Graph

theorem loose_equals_iff {a b : Graph} : a.loose.Equals b.loose ↔ (a == b) = true := by
  have hpasses : List.Forall₂ LoosePass.Equals a.loose.passes b.loose.passes ↔
      (a.passes == b.passes) = true := by
    rw [loose, loose, List.forall₂_map_left_iff, List.forall₂_map_right_iff, list_beq_iff]
    simp only [Pass.loose_equals_iff]
  rw [beq_iff, ← hpasses]
  constructor
  · intro h
    exact ⟨h.version, h.name, h.resources, h.passes, h.outputs, h.resourceTable, h.passTable⟩
  · intro h
    obtain ⟨hversion, hname, hresources, hsame, houtputs, hresourceTable, hpassTable⟩ := h
    exact ⟨hversion, hname, hresources, hsame, houtputs, hresourceTable, hpassTable⟩

end Graph

end FrameGraph
