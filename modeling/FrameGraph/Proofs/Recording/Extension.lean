import FrameGraph.Proofs.Plan.Execution
import FrameGraph.Proofs.Recording.Operations
import Mathlib.Data.List.Forall2

namespace FrameGraph

variable {ε τ α β κ : Type}

/-- The list is the base and after it members related to those given. -/
def Grown (R : α → β → Prop) (base : List α) (bs : List β) (xs : List α) : Prop :=
  ∃ new, xs = base ++ new ∧ List.Forall₂ R new bs

theorem Grown.nil (R : α → β → Prop) (base : List α) : Grown R base [] base :=
  ⟨[], (List.append_nil base).symm, .nil⟩

theorem forall₂_concat {R : α → β → Prop} {as : List α} {bs : List β} {a : α} {b : β}
    (h : List.Forall₂ R as bs) (hab : R a b) : List.Forall₂ R (as ++ [a]) (bs ++ [b]) :=
  List.rel_append h (.cons hab .nil)

theorem Grown.concat {R : α → β → Prop} {base xs : List α} {bs : List β} {x : α} {b : β}
    (h : Grown R base bs xs) (hxb : R x b) : Grown R base (bs ++ [b]) (xs ++ [x]) := by
  obtain ⟨new, rfl, hnew⟩ := h
  exact ⟨new ++ [x], List.append_assoc .., forall₂_concat hnew hxb⟩

theorem Grown.mono {R S : α → β → Prop} {base xs : List α} {bs : List β} (h : Grown R base bs xs)
    (hRS : ∀ a b, R a b → S a b) : Grown S base bs xs := by
  obtain ⟨new, hxs, hnew⟩ := h
  exact ⟨new, hxs, hnew.imp hRS⟩

theorem Grown.length {R : α → β → Prop} {base xs : List α} {bs : List β} (h : Grown R base bs xs) :
    xs.length = base.length + bs.length := by
  obtain ⟨new, rfl, hnew⟩ := h
  rw [List.length_append, hnew.length_eq]

theorem Grown.of_nil {R : α → β → Prop} {xs : List α} {bs : List β} (h : Grown R [] bs xs) :
    List.Forall₂ R xs bs := by
  obtain ⟨new, rfl, hnew⟩ := h
  exact hnew

theorem map_eq_of_forall₂ {R : α → β → Prop} {as : List α} {bs : List β}
    (h : List.Forall₂ R as bs) {f : α → κ} {g : β → κ} (hfg : ∀ a b, R a b → f a = g b) :
    as.map f = bs.map g := by
  induction h with
  | nil => rfl
  | cons hab _ ih => rw [List.map_cons, List.map_cons, hfg _ _ hab, ih]

/-- What ends with a member given ends with one that is related to it. -/
theorem Grown.of_concat {R : α → β → Prop} {base xs : List α} {bs : List β} {b : β}
    (h : Grown R base (bs ++ [b]) xs) :
    ∃ ys y, xs = ys ++ [y] ∧ Grown R base bs ys ∧ R y b := by
  obtain ⟨new, rfl, hnew⟩ := h
  have hfirst := List.forall₂_take_append new bs [b] hnew
  have hlast := List.forall₂_drop_append new bs [b] hnew
  obtain ⟨y, ys, hyb, hys, hdrop⟩ := List.forall₂_cons_right_iff.1 hlast
  obtain rfl := List.forall₂_nil_right_iff.1 hys
  refine ⟨base ++ new.take bs.length, y, ?_, ⟨_, rfl, hfirst⟩, hyb⟩
  rw [List.append_assoc, ← hdrop, List.take_append_drop]

/-- The last member changes on both sides. -/
theorem Grown.modify_last {R S : α → β → Prop} {base xs : List α} {bs : List β}
    (h : Grown R base bs xs) (hbs : bs ≠ []) {f : α → α} {g : β → β}
    (hRS : ∀ a b, R a b → S a b) (hfg : ∀ a b, R a b → S (f a) (g b)) :
    Grown S base (bs.modify (bs.length - 1) g) (xs.modify (xs.length - 1) f) := by
  obtain ⟨bs', b, rfl⟩ : ∃ bs' b, bs = bs' ++ [b] :=
    ⟨bs.dropLast, bs.getLast hbs, (List.dropLast_concat_getLast hbs).symm⟩
  obtain ⟨ys, y, rfl, hys, hyb⟩ := h.of_concat
  have hlength : (bs' ++ [b]).length - 1 = bs'.length := by simp
  have hlength' : (ys ++ [y]).length - 1 = ys.length := by simp
  rw [hlength, hlength', Account.modify_concat, Account.modify_concat]
  exact (hys.mono hRS).concat (hfg y b hyb)

def UseAccount.image? (u : UseAccount) : Option (UseRecord String ImageAccess) :=
  match u.access with
  | .image access => some ⟨u.resource, access, u.binding⟩
  | .buffer _ => none

def UseAccount.buffer? (u : UseAccount) : Option (UseRecord String BufferAccess) :=
  match u.access with
  | .image _ => none
  | .buffer access => some ⟨u.resource, access, u.binding⟩

/-- The use as recorded is that of the account, with a key of the name. -/
structure UseRecord.Shows (nameOf : κ → Option String) (u : UseRecord κ α) (v : UseRecord String α) :
    Prop where
  resource : nameOf u.resource = some v.resource
  access : u.access = v.access
  binding : u.binding = v.binding

structure AttachmentRecord.Shows (r : Recording ε) (a : AttachmentRecord) (b : AttachmentAccount) :
    Prop where
  image : r.imageName? a.image = some b.image
  description : a.description = b.description
  readOnly : a.readOnly = b.readOnly

/-- The pass as recorded is that of the account: keys stand for the names, and images and buffers are
told apart. -/
structure PassRecord.Shows (r : Recording ε) (p : PassRecord ε) (a : PassAccount ε) : Prop where
  name : p.name = a.name
  type : p.type = a.type
  flags : p.flags = a.flags
  domain : p.domain = a.domain
  executor : p.executor = a.executor
  colors : List.Forall₂ (AttachmentRecord.Shows r) p.colors a.colors
  depth : List.Forall₂ (AttachmentRecord.Shows r) p.depth.toList a.depth.toList
  imageReads : List.Forall₂ (UseRecord.Shows r.imageName?) p.imageReads
    (a.reads.filterMap UseAccount.image?)
  imageWrites : List.Forall₂ (UseRecord.Shows r.imageName?) p.imageWrites
    (a.writes.filterMap UseAccount.image?)
  bufferReads : List.Forall₂ (UseRecord.Shows r.bufferName?) p.bufferReads
    (a.reads.filterMap UseAccount.buffer?)
  bufferWrites : List.Forall₂ (UseRecord.Shows r.bufferName?) p.bufferWrites
    (a.writes.filterMap UseAccount.buffer?)

/-- The kinds of records with names of their own. -/
inductive RecordKind where
  | image
  | buffer
  | pass
  deriving DecidableEq

namespace RecordKind

/-- The name for one kind, and none for the others. -/
def only (kind : RecordKind) (name : String) (k : RecordKind) : List String :=
  if k = kind then [name] else []

theorem mem_only_iff {kind k : RecordKind} {name n : String} :
    n ∈ kind.only name k ↔ k = kind ∧ n = name := by
  unfold only
  by_cases hk : k = kind <;> simp [hk]

end RecordKind

/-- The names that a step declares. -/
def PlanStep.declared : PlanStep ε → RecordKind → List String
  | .image q => RecordKind.image.only q.name
  | .buffer q => RecordKind.buffer.only q.name
  | .pass q => RecordKind.pass.only q.name
  | .command _ | .note .. | .stop _ => fun _ => []

/-- The image that a step presents. -/
def PlanStep.presented : PlanStep ε → List String
  | .command (.setPresent name) => [name]
  | _ => []

theorem Account.passNames_tell (a : Account ε) (c : Command String String Unit ε) :
    (a.tell c).passNames = a.passNames := by
  cases ho : c.isOutput with
  | false =>
    rw [a.tell_of_not_isOutput ho]
    exact map_modify_of_eq (fun p => p.tell_name c) _ _
  | true =>
    cases c with
    | setPresent | exportImage | exportBuffer => rfl
    | _ => exact absurd ho Bool.noConfusion

def Account.names (a : Account ε) : RecordKind → List String
  | .image => a.imageNames
  | .buffer => a.bufferNames
  | .pass => a.passNames

namespace Recording

/-- The names of a kind that are in the table. -/
def taken (r : Recording ε) : RecordKind → List String
  | .image => r.imageStore.taken
  | .buffer => r.bufferStore.taken
  | .pass => r.passStore.taken

/-- All that the base has and then what the account holds. -/
structure Extends (base : Recording ε) (a : Account ε) (r : Recording ε) : Prop where
  imageStore : Store.Widens (·.name) base.imageStore a.imageNames r.imageStore
  bufferStore : Store.Widens (·.name) base.bufferStore a.bufferNames r.bufferStore
  passStore : Store.Widens (·.name) base.passStore a.passNames r.passStore
  images : r.images = base.images ++ a.images
  buffers : r.buffers = base.buffers ++ a.buffers
  passes : Grown (PassRecord.Shows r) base.passes a.passes r.passes
  presented : Grown (fun k name => r.imageName? k = some name) base.present.toList a.presented
    r.present.toList
  exportedImages : Grown (fun k name => r.imageName? k = some name) base.exportedImages
    a.exportedImages r.exportedImages
  exportedBuffers : Grown (fun k name => r.bufferName? k = some name) base.exportedBuffers
    a.exportedBuffers r.exportedBuffers

/-- Keys of the first recording have the same names in the second. -/
structure Keeps (r r' : Recording ε) : Prop where
  images : ∀ k name, r.imageName? k = some name → r'.imageName? k = some name
  buffers : ∀ k name, r.bufferName? k = some name → r'.bufferName? k = some name

variable {r r' base : Recording ε}

theorem keeps_addImage (r : Recording ε) (q : ImageRequest) :
    Keeps r { r with imageStore := r.imageStore.add q.name q } := by
  refine ⟨fun k name hk => ?_, fun _ _ hk => hk⟩
  obtain ⟨q', hq', hname⟩ := Option.map_eq_some_iff.1 hk
  exact Option.map_eq_some_iff.2 ⟨q', Store.get?_add_of_eq_some hq' _ q, hname⟩

theorem keeps_addBuffer (r : Recording ε) (q : BufferRequest) :
    Keeps r { r with bufferStore := r.bufferStore.add q.name q } := by
  refine ⟨fun _ _ hk => hk, fun k name hk => ?_⟩
  obtain ⟨q', hq', hname⟩ := Option.map_eq_some_iff.1 hk
  exact Option.map_eq_some_iff.2 ⟨q', Store.get?_add_of_eq_some hq' _ q, hname⟩

/-- What touches neither images nor buffers keeps their names. -/
theorem keeps_of_eq (hi : r'.imageStore = r.imageStore) (hb : r'.bufferStore = r.bufferStore) :
    Keeps r r' := by
  refine ⟨fun k name hk => ?_, fun k name hk => ?_⟩
  · unfold imageName? image? at hk ⊢
    rwa [hi]
  · unfold bufferName? buffer? at hk ⊢
    rwa [hb]

end Recording

theorem AttachmentRecord.Shows.mono {r r' : Recording ε} {a : AttachmentRecord}
    {b : AttachmentAccount} (h : a.Shows r b) (hk : r.Keeps r') : a.Shows r' b :=
  ⟨hk.images _ _ h.image, h.description, h.readOnly⟩

theorem UseRecord.Shows.mono {f g : κ → Option String} {u : UseRecord κ α} {v : UseRecord String α}
    (h : u.Shows f v) (hfg : ∀ k name, f k = some name → g k = some name) : u.Shows g v :=
  ⟨hfg _ _ h.resource, h.access, h.binding⟩

theorem PassRecord.Shows.mono {r r' : Recording ε} {p : PassRecord ε} {a : PassAccount ε}
    (h : p.Shows r a) (hk : r.Keeps r') : p.Shows r' a where
  name := h.name
  type := h.type
  flags := h.flags
  domain := h.domain
  executor := h.executor
  colors := h.colors.imp fun _ _ hc => hc.mono hk
  depth := h.depth.imp fun _ _ hd => hd.mono hk
  imageReads := h.imageReads.imp fun _ _ hu => hu.mono hk.images
  imageWrites := h.imageWrites.imp fun _ _ hu => hu.mono hk.images
  bufferReads := h.bufferReads.imp fun _ _ hu => hu.mono hk.buffers
  bufferWrites := h.bufferWrites.imp fun _ _ hu => hu.mono hk.buffers

namespace Recording

open Plan

variable {r r' base : Recording ε} {a : Account ε} {h : Handles ImageKey BufferKey PassKey}

/-- The recording extends the base by the account, and the handles are its keys. -/
structure Records (base : Recording ε) (a : Account ε) (h : Handles ImageKey BufferKey PassKey)
    (r : Recording ε) : Prop where
  answered : Answered a h
  content : Extends base a r
  images : ∀ name k, h.images.lookup name = some k → r.imageName? k = some name
  buffers : ∀ name k, h.buffers.lookup name = some k → r.bufferName? k = some name
  pass : ∀ k, h.pass = some k →
    r.passStore.position? k = some (r.passes.length - 1) ∧ a.passes ≠ []

theorem records_empty (base : Recording ε) : Records base {} {} base where
  answered := answered_empty
  content :=
    { imageStore := Store.widens_refl _ _
      bufferStore := Store.widens_refl _ _
      passStore := Store.widens_refl _ _
      images := (List.append_nil _).symm
      buffers := (List.append_nil _).symm
      passes := .nil _ _
      presented := .nil _ _
      exportedImages := .nil _ _
      exportedBuffers := .nil _ _ }
  images := nofun
  buffers := nofun
  pass := nofun

/-- What the step declares is not declared yet, and it presents no second image. -/
structure Fits (r : Recording ε) (x : PlanStep ε) : Prop where
  declared : ∀ kind, ∀ name ∈ x.declared kind, name ∉ r.taken kind
  presented : ∀ image ∈ x.presented, r.present = none

/-- A request fits exactly if its name is not taken. -/
theorem fits_iff_of_declared {x : PlanStep ε} {kind : RecordKind} {name : String}
    (hx : x.declared = kind.only name) (hpresented : x.presented = []) :
    Fits r x ↔ name ∉ r.taken kind := by
  constructor
  · intro h
    refine h.declared kind name ?_
    rw [hx]
    exact RecordKind.mem_only_iff.2 ⟨rfl, rfl⟩
  · intro h
    refine ⟨fun kind' name' hname' => ?_, hpresented ▸ List.forall_mem_nil _⟩
    rw [hx] at hname'
    obtain ⟨rfl, rfl⟩ := RecordKind.mem_only_iff.1 hname'
    exact h

theorem fits_of_nothing {x : PlanStep ε} (hx : ∀ kind, x.declared kind = [])
    (hpresented : ∀ image ∈ x.presented, r.present = none) : Fits r x where
  declared kind name hname := by
    rw [hx] at hname
    exact absurd hname List.not_mem_nil
  presented := hpresented

theorem imageName?_next (r : Recording ε) (q : ImageRequest) :
    imageName? { r with imageStore := r.imageStore.add q.name q } r.imageStore.next = some q.name :=
  congrArg (Option.map ImageRequest.name) (r.imageStore.get?_add_next q.name q)

theorem bufferName?_next (r : Recording ε) (q : BufferRequest) :
    bufferName? { r with bufferStore := r.bufferStore.add q.name q } r.bufferStore.next =
      some q.name :=
  congrArg (Option.map BufferRequest.name) (r.bufferStore.get?_add_next q.name q)

theorem lookup_cons_eq_some {table : List (String × κ)} {name name' : String} {k k' : κ}
    (h : List.lookup name ((name', k') :: table) = some k) :
    (name = name' ∧ k = k') ∨ table.lookup name = some k := by
  rw [List.lookup_cons] at h
  cases hn : name == name' with
  | true =>
    rw [hn] at h
    exact .inl ⟨eq_of_beq hn, (Option.some.inj h).symm⟩
  | false =>
    rw [hn] at h
    exact .inr h

theorem Records.addImage (hr : Records base a h r) (q : ImageRequest)
    (hq : q.name ∉ r.imageStore.taken)
    (ha : Answered (a.apply (.image q)) { h with images := (q.name, r.imageStore.next) :: h.images }) :
    Records base (a.apply (.image q)) { h with images := (q.name, r.imageStore.next) :: h.images }
      { r with imageStore := r.imageStore.add q.name q } := by
  have hk := keeps_addImage r q
  have he := hr.content
  have hnames : (a.apply (.image q)).imageNames = a.imageNames ++ [q.name] := List.map_append
  refine ⟨ha, ⟨?_, he.bufferStore, he.passStore, ?_, he.buffers, ?_, ?_, ?_, ?_⟩, ?_, hr.buffers,
    hr.pass⟩
  · rw [hnames]
    exact he.imageStore.add hq
  · show r.images ++ [q] = base.images ++ (a.images ++ [q])
    rw [he.images, List.append_assoc]
  · exact he.passes.mono fun _ _ hp => hp.mono hk
  · exact he.presented.mono fun _ _ hp => hk.images _ _ hp
  · exact he.exportedImages.mono fun _ _ hp => hk.images _ _ hp
  · exact he.exportedBuffers.mono fun _ _ hp => hk.buffers _ _ hp
  · intro name k hlookup
    obtain ⟨rfl, rfl⟩ | hold := lookup_cons_eq_some hlookup
    · exact imageName?_next r q
    · exact hk.images _ _ (hr.images name k hold)

theorem Records.addBuffer (hr : Records base a h r) (q : BufferRequest)
    (hq : q.name ∉ r.bufferStore.taken)
    (ha : Answered (a.apply (.buffer q))
      { h with buffers := (q.name, r.bufferStore.next) :: h.buffers }) :
    Records base (a.apply (.buffer q)) { h with buffers := (q.name, r.bufferStore.next) :: h.buffers }
      { r with bufferStore := r.bufferStore.add q.name q } := by
  have hk := keeps_addBuffer r q
  have he := hr.content
  have hnames : (a.apply (.buffer q)).bufferNames = a.bufferNames ++ [q.name] := List.map_append
  refine ⟨ha, ⟨he.imageStore, ?_, he.passStore, he.images, ?_, ?_, ?_, ?_, ?_⟩, hr.images, ?_,
    hr.pass⟩
  · rw [hnames]
    exact he.bufferStore.add hq
  · show r.buffers ++ [q] = base.buffers ++ (a.buffers ++ [q])
    rw [he.buffers, List.append_assoc]
  · exact he.passes.mono fun _ _ hp => hp.mono hk
  · exact he.presented.mono fun _ _ hp => hk.images _ _ hp
  · exact he.exportedImages.mono fun _ _ hp => hk.images _ _ hp
  · exact he.exportedBuffers.mono fun _ _ hp => hk.buffers _ _ hp
  · intro name k hlookup
    obtain ⟨rfl, rfl⟩ | hold := lookup_cons_eq_some hlookup
    · exact bufferName?_next r q
    · exact hk.buffers _ _ (hr.buffers name k hold)

theorem Records.addPass (hr : Records base a h r) (q : PassRequest)
    (hq : q.name ∉ r.passStore.taken)
    (ha : Answered (a.apply (.pass q)) { h with pass := some r.passStore.next }) :
    Records base (a.apply (.pass q)) { h with pass := some r.passStore.next }
      { r with passStore := r.passStore.add q.name { name := q.name, type := q.type } } := by
  have he := hr.content
  let p : PassRecord ε := { name := q.name, type := q.type }
  let r' : Recording ε := { r with passStore := r.passStore.add q.name p }
  have hk : Keeps r r' := keeps_of_eq rfl rfl
  have hnew : PassRecord.Shows r' p { name := q.name, type := q.type } :=
    ⟨rfl, rfl, rfl, rfl, rfl, .nil, .nil, .nil, .nil, .nil, .nil⟩
  have hnames : (a.apply (.pass q)).passNames = a.passNames ++ [q.name] := List.map_append
  refine ⟨ha, ⟨he.imageStore, he.bufferStore, ?_, he.images, he.buffers, ?_, he.presented,
    he.exportedImages, he.exportedBuffers⟩, hr.images, hr.buffers, ?_⟩
  · rw [hnames]
    exact he.passStore.add (a := p) hq
  · exact (he.passes.mono fun _ _ hp => hp.mono hk).concat hnew
  · intro k hpass
    obtain rfl := Option.some.inj hpass
    refine ⟨(Store.position?_eq_some_iff _ _ _).2 ⟨?_, ?_⟩, by simp [Account.apply]⟩
    · simp [passes, Store.add]
    · simp [passes, Store.add, Store.next]

theorem forall₂_filterMap_concat {α β γ : Type} {R : α → β → Prop} {f : γ → Option β} {as : List α}
    {cs : List γ} (h : List.Forall₂ R as (cs.filterMap f)) {a : α} {b : β} {c : γ}
    (hc : f c = some b) (hab : R a b) : List.Forall₂ R (as ++ [a]) ((cs ++ [c]).filterMap f) := by
  rw [List.filterMap_append, List.filterMap_cons_some hc]
  exact forall₂_concat h hab

theorem forall₂_filterMap_skip {α β γ : Type} {R : α → β → Prop} {f : γ → Option β} {as : List α}
    {cs : List γ} (h : List.Forall₂ R as (cs.filterMap f)) {c : γ} (hc : f c = none) :
    List.Forall₂ R as ((cs ++ [c]).filterMap f) := by
  rw [List.filterMap_append, List.filterMap_cons_none hc, List.filterMap_nil, List.append_nil]
  exact h

/-- What a command on names becomes on handles. -/
inductive Resolved (h : Handles ImageKey BufferKey PassKey) :
    Command String String Unit ε → Command ImageKey BufferKey PassKey ε → Prop where
  | setFlags {k : PassKey} (hk : h.pass = some k) (flags : FlagSet PassFlag) :
      Resolved h (.setFlags () flags) (.setFlags k flags)
  | setDomain {k : PassKey} (hk : h.pass = some k) (domain : Domain) :
      Resolved h (.setDomain () domain) (.setDomain k domain)
  | setExecutor {k : PassKey} (hk : h.pass = some k) (executor : ε) :
      Resolved h (.setExecutor () executor) (.setExecutor k executor)
  | addColor {k : PassKey} {name : String} {i : ImageKey} (hk : h.pass = some k)
      (hi : h.images.lookup name = some i) (description : AttachmentDescription) :
      Resolved h (.addColor () name description) (.addColor k i description)
  | setDepth {k : PassKey} {name : String} {i : ImageKey} (hk : h.pass = some k)
      (hi : h.images.lookup name = some i) (description : AttachmentDescription) (readOnly : Bool) :
      Resolved h (.setDepth () name description readOnly) (.setDepth k i description readOnly)
  | useImage {k : PassKey} {name : String} {i : ImageKey} (hk : h.pass = some k)
      (hi : h.images.lookup name = some i) (mode : UseMode) (access : ImageAccess)
      (binding : Binding) :
      Resolved h (.useImage mode () name access binding) (.useImage mode k i access binding)
  | useBuffer {k : PassKey} {name : String} {b : BufferKey} (hk : h.pass = some k)
      (hb : h.buffers.lookup name = some b) (mode : UseMode) (access : BufferAccess)
      (binding : Binding) :
      Resolved h (.useBuffer mode () name access binding) (.useBuffer mode k b access binding)
  | setPresent {name : String} {i : ImageKey} (hi : h.images.lookup name = some i) :
      Resolved h (.setPresent name) (.setPresent i)
  | exportImage {name : String} {i : ImageKey} (hi : h.images.lookup name = some i) :
      Resolved h (.exportImage name) (.exportImage i)
  | exportBuffer {name : String} {b : BufferKey} (hb : h.buffers.lookup name = some b) :
      Resolved h (.exportBuffer name) (.exportBuffer b)

theorem resolved_of_resolve? {c : Command String String Unit ε}
    {c' : Command ImageKey BufferKey PassKey ε} (hc : h.resolve? c = some c') : Resolved h c c' := by
  cases c with
  | setFlags | setDomain | setExecutor =>
    obtain ⟨k, hk, heq⟩ := Option.bind_eq_some_iff.1 hc
    obtain rfl := Option.some.inj heq
    constructor
    exact hk
  | addColor | setDepth | useImage | useBuffer =>
    obtain ⟨k, hk, hc⟩ := Option.bind_eq_some_iff.1 hc
    obtain ⟨i, hi, heq⟩ := Option.bind_eq_some_iff.1 hc
    obtain rfl := Option.some.inj heq
    constructor
    · exact hk
    · exact hi
  | setPresent | exportImage | exportBuffer =>
    obtain ⟨i, hi, heq⟩ := Option.bind_eq_some_iff.1 hc
    obtain rfl := Option.some.inj heq
    constructor
    exact hi

/-- A pass told something shows the account told the same about names. -/
theorem shows_tell (hr : Records base a h r) {p : PassRecord ε} {d : PassAccount ε}
    (hp : p.Shows r d) {c : Command String String Unit ε} {c' : Command ImageKey BufferKey PassKey ε}
    (hc : Resolved h c c') : (p.tell c').Shows r (d.tell c) := by
  obtain ⟨hname, htype, hflags, hdomain, hexecutor, hcolors, hdepth, hir, hiw, hbr, hbw⟩ := hp
  cases hc with
  | setFlags => exact ⟨hname, htype, rfl, hdomain, hexecutor, hcolors, hdepth, hir, hiw, hbr, hbw⟩
  | setDomain => exact ⟨hname, htype, hflags, rfl, hexecutor, hcolors, hdepth, hir, hiw, hbr, hbw⟩
  | setExecutor => exact ⟨hname, htype, hflags, hdomain, rfl, hcolors, hdepth, hir, hiw, hbr, hbw⟩
  | @addColor _ image i hk hi description =>
    have hcolor : AttachmentRecord.Shows r ⟨i, description, false⟩ ⟨image, description, false⟩ :=
      ⟨hr.images _ _ hi, rfl, rfl⟩
    exact ⟨hname, htype, hflags, hdomain, hexecutor, forall₂_concat hcolors hcolor, hdepth, hir, hiw,
      hbr, hbw⟩
  | @setDepth _ image i hk hi description readOnly =>
    have hd : AttachmentRecord.Shows r ⟨i, description, readOnly⟩ ⟨image, description, readOnly⟩ :=
      ⟨hr.images _ _ hi, rfl, rfl⟩
    exact ⟨hname, htype, hflags, hdomain, hexecutor, hcolors, .cons hd .nil, hir, hiw, hbr, hbw⟩
  | @useImage _ image i hk hi mode access binding =>
    have hu : UseRecord.Shows r.imageName? ⟨i, access, binding⟩ ⟨image, access, binding⟩ :=
      ⟨hr.images _ _ hi, rfl, rfl⟩
    cases mode with
    | read =>
      exact ⟨hname, htype, hflags, hdomain, hexecutor, hcolors, hdepth,
        forall₂_filterMap_concat hir rfl hu, hiw, forall₂_filterMap_skip hbr rfl, hbw⟩
    | write =>
      exact ⟨hname, htype, hflags, hdomain, hexecutor, hcolors, hdepth, hir,
        forall₂_filterMap_concat hiw rfl hu, hbr, forall₂_filterMap_skip hbw rfl⟩
  | @useBuffer _ buffer b hk hb mode access binding =>
    have hu : UseRecord.Shows r.bufferName? ⟨b, access, binding⟩ ⟨buffer, access, binding⟩ :=
      ⟨hr.buffers _ _ hb, rfl, rfl⟩
    cases mode with
    | read =>
      exact ⟨hname, htype, hflags, hdomain, hexecutor, hcolors, hdepth,
        forall₂_filterMap_skip hir rfl, hiw, forall₂_filterMap_concat hbr rfl hu, hbw⟩
    | write =>
      exact ⟨hname, htype, hflags, hdomain, hexecutor, hcolors, hdepth, hir,
        forall₂_filterMap_skip hiw rfl, hbr, forall₂_filterMap_concat hbw rfl hu⟩
  | setPresent | exportImage | exportBuffer =>
    exact ⟨hname, htype, hflags, hdomain, hexecutor, hcolors, hdepth, hir, hiw, hbr, hbw⟩

theorem Resolved.exists_pass {c : Command String String Unit ε}
    {c' : Command ImageKey BufferKey PassKey ε} (hc : Resolved h c c') (ho : c.isOutput = false) :
    ∃ k, h.pass = some k ∧ c'.pass? = some k := by
  cases hc with
  | setPresent | exportImage | exportBuffer => exact absurd ho (by simp [Command.isOutput])
  | setFlags hk | setDomain hk | setExecutor hk | addColor hk | setDepth hk | useImage hk
  | useBuffer hk => exact ⟨_, hk, rfl⟩

/-- A command about the last pass is never refused. -/
theorem Records.tellPass (hr : Records base a h r) {c : Command String String Unit ε}
    {c' : Command ImageKey BufferKey PassKey ε} (hc : Resolved h c c') (ho : c.isOutput = false) :
    ∃ r', perform c' r = ⟨r', [], .ok ()⟩ ∧ Records base (a.tell c) h r' := by
  obtain ⟨k, hk, hk'⟩ := hc.exists_pass ho
  obtain ⟨hposition, hne⟩ := hr.pass k hk
  have he := hr.content
  have hget : r.pass? k = r.passes[r.passes.length - 1]? := by
    show (r.passStore.position? k).bind _ = _
    rw [hposition]
    rfl
  have hsome : (r.pass? k).isSome = true := by
    obtain ⟨hlt, -⟩ := (r.passStore.position?_eq_some_iff k _).1 hposition
    rw [hget]
    exact Option.isSome_iff_exists.2 ⟨_, List.getElem?_eq_getElem hlt⟩
  let r' : Recording ε := { r with passStore := r.passStore.modify k (·.tell c') }
  have hpasses : r'.passes = r.passes.modify (r.passes.length - 1) (·.tell c') :=
    Store.records_modify hposition _
  have hkeeps : Keeps r r' := keeps_of_eq rfl rfl
  refine ⟨r', ?_, ?_⟩
  · rw [perform_of_pass? hk', updatePass_of_isSome r hsome]
  · have hgrown : Grown (PassRecord.Shows r') base.passes
        (a.passes.modify (a.passes.length - 1) (·.tell c)) r'.passes := by
      rw [hpasses]
      exact he.passes.modify_last hne (fun _ _ hp => hp.mono hkeeps)
        fun _ _ hp => (shows_tell hr hp hc).mono hkeeps
    have htable : Store.Widens (·.name) base.passStore (a.tell c).passNames r'.passStore := by
      rw [a.passNames_tell]
      exact he.passStore.modify k fun p => p.name_tell c'
    have htell := hr.answered.tell c
    rw [a.tell_of_not_isOutput ho] at htell htable ⊢
    refine ⟨htell, ⟨he.imageStore, he.bufferStore, htable, he.images, he.buffers, hgrown,
      he.presented, he.exportedImages, he.exportedBuffers⟩, hr.images, hr.buffers, ?_⟩
    intro k' hk'
    obtain ⟨hposition', -⟩ := hr.pass k' hk'
    refine ⟨?_, by simpa using hne⟩
    rw [hpasses, List.length_modify]
    exact (r.passStore.position?_modify k k' _).trans hposition'

/-- A command about an output is refused only if a second image is to be presented. -/
theorem Records.tellOutput (hr : Records base a h r) {c : Command String String Unit ε}
    {c' : Command ImageKey BufferKey PassKey ε} (hc : Resolved h c c') (ho : c.isOutput = true) :
    (Fits r (.command c) ∧ ∃ r', perform c' r = ⟨r', [], .ok ()⟩ ∧ Records base (a.tell c) h r') ∨
    (¬Fits r (.command c) ∧ ∃ e, perform c' r = r.refused e) := by
  have he := hr.content
  cases hc with
  | @setPresent image i hi =>
    cases hp : r.present with
    | some k =>
      refine .inr ⟨?_, _, setPresent_of_isSome r i (by rw [hp]; rfl)⟩
      intro hfits
      exact Option.some_ne_none k (hp.symm.trans (hfits.presented image (List.mem_singleton_self _)))
    | none =>
      refine .inl ⟨fits_of_nothing (fun _ => rfl) fun _ _ => hp, _, setPresent_of_none r i hp,
        hr.answered.tell _, ?_, hr.images, hr.buffers, hr.pass⟩
      have hgrown := he.presented.concat (hr.images image i hi)
      rw [hp] at hgrown
      have hk : Keeps r { r with present := some i } := keeps_of_eq rfl rfl
      exact ⟨he.imageStore, he.bufferStore, he.passStore, he.images, he.buffers,
        he.passes.mono fun _ _ hp => hp.mono hk, hgrown, he.exportedImages, he.exportedBuffers⟩
  | @exportImage image i hi =>
    have hfits : Fits r (.command (.exportImage image)) :=
      fits_of_nothing (fun _ => rfl) (List.forall_mem_nil _)
    refine .inl ⟨hfits, _, rfl, hr.answered.tell _, ?_, hr.images, hr.buffers, hr.pass⟩
    have hk : Keeps r { r with exportedImages := r.exportedImages ++ [i] } := keeps_of_eq rfl rfl
    exact ⟨he.imageStore, he.bufferStore, he.passStore, he.images, he.buffers,
      he.passes.mono fun _ _ hp => hp.mono hk, he.presented,
      he.exportedImages.concat (hr.images image i hi), he.exportedBuffers⟩
  | @exportBuffer buffer b hb =>
    have hfits : Fits r (.command (.exportBuffer buffer)) :=
      fits_of_nothing (fun _ => rfl) (List.forall_mem_nil _)
    refine .inl ⟨hfits, _, rfl, hr.answered.tell _, ?_, hr.images, hr.buffers, hr.pass⟩
    have hk : Keeps r { r with exportedBuffers := r.exportedBuffers ++ [b] } :=
      keeps_of_eq rfl rfl
    exact ⟨he.imageStore, he.bufferStore, he.passStore, he.images, he.buffers,
      he.passes.mono fun _ _ hp => hp.mono hk, he.presented, he.exportedImages,
      he.exportedBuffers.concat (hr.buffers buffer b hb)⟩
  | _ => exact absurd ho (by simp [Command.isOutput])

/-- A step that declares extends the recording, unless the name is taken. -/
theorem Records.step_of_declare {x : PlanStep ε} {what name : String} {q : α}
    {store : Recording ε → Store τ α} {put : Recording ε → Store τ α → Recording ε}
    {f : Key τ → Handles ImageKey BufferKey PassKey}
    (hstep : step engine h x = declare what name q store put >>= fun k => pure (f k))
    (hfits : Fits r x ↔ name ∉ (store r).taken)
    (hadd : name ∉ (store r).taken → Answered (a.apply x) (f (store r).next) →
      Records base (a.apply x) (f (store r).next) (put r ((store r).add name q)))
    (hr : Records base a h r) (hx : Allows a x) :
    (Fits r x ∧ ∃ r' log h', step engine h x r = ⟨r', log, .ok h'⟩ ∧ Records base (a.apply x) h' r') ∨
    (¬Fits r x ∧ ∃ log e, step engine h x r = ⟨r, log, .error e⟩) := by
  rw [hfits]
  by_cases hname : name ∈ (store r).taken
  · rw [hstep, Action.bind_of_error (declare_of_mem r hname)]
    exact .inr ⟨not_not_intro hname, _, _, rfl⟩
  · have hok := congrFun hstep r
    rw [Action.bind_of_ok (declare_of_not_mem r hname)] at hok
    have hanswered := hr.answered.apply (hr.answered.performs hx) hok
    exact .inl ⟨hname, _, _, _, hok, hadd hname hanswered⟩

/-- A step that may come next extends the recording if what it declares is not declared yet, and
changes nothing otherwise. -/
theorem Records.step (hr : Records base a h r) {x : PlanStep ε} (hx : Allows a x) :
    (Fits r x ∧ ∃ r' log h', step engine h x r = ⟨r', log, .ok h'⟩ ∧ Records base (a.apply x) h' r') ∨
    (¬Fits r x ∧ ∃ log e, step engine h x r = ⟨r, log, .error e⟩) := by
  cases x with
  | image q =>
    have hfits : Fits r (.image q) ↔ q.name ∉ r.taken .image := fits_iff_of_declared rfl rfl
    have hstep : Plan.step (ε := ε) engine h (.image q) = declareImage q >>= fun i =>
        pure { h with images := (q.name, i) :: h.images } := rfl
    exact step_of_declare hstep hfits (hr.addImage q) hr hx
  | buffer q =>
    have hfits : Fits r (.buffer q) ↔ q.name ∉ r.taken .buffer := fits_iff_of_declared rfl rfl
    have hstep : Plan.step (ε := ε) engine h (.buffer q) = declareBuffer q >>= fun b =>
        pure { h with buffers := (q.name, b) :: h.buffers } := rfl
    exact step_of_declare hstep hfits (hr.addBuffer q) hr hx
  | pass q =>
    have hfits : Fits r (.pass q) ↔ q.name ∉ r.taken .pass := fits_iff_of_declared rfl rfl
    have hstep : Plan.step (ε := ε) engine h (.pass q) = declarePass q >>= fun k =>
        pure { h with pass := some k } := rfl
    exact step_of_declare hstep hfits (hr.addPass q) hr hx
  | command c =>
    obtain ⟨c', hc⟩ := hr.answered.exists_resolve? hx
    have hresolved := resolved_of_resolve? hc
    have heq : Plan.step engine h (.command c) = perform c' >>= fun _ => pure h := by
      simp [Plan.step, hc, engine]
    rw [heq]
    cases ho : c.isOutput with
    | false =>
      obtain ⟨r', hperform, hr'⟩ := hr.tellPass hresolved ho
      have hfits : Fits r (.command c) := by
        refine fits_of_nothing (fun _ => rfl) ?_
        cases c with
        | setPresent => exact absurd ho Bool.noConfusion
        | _ => exact List.forall_mem_nil _
      exact .inl ⟨hfits, _, _, _, Action.bind_of_ok hperform, hr'⟩
    | true =>
      obtain ⟨hfits, r', hperform, hr'⟩ | ⟨hfits, e, hperform⟩ := hr.tellOutput hresolved ho
      · exact .inl ⟨hfits, _, _, _, Action.bind_of_ok hperform, hr'⟩
      · exact .inr ⟨hfits, _, _, Action.bind_of_error hperform⟩
  | note severity message =>
    have hfits : Fits r (.note severity message : PlanStep ε) :=
      fits_of_nothing (fun _ => rfl) (List.forall_mem_nil _)
    exact .inl ⟨hfits, _, _, _, Action.bind_of_ok (Action.note_apply _ _ _ r), hr⟩
  | stop e => exact hx.elim

end Recording

end FrameGraph
