import FrameGraph.Proofs.Plan.Account
import FrameGraph.Proofs.Plan.Run

namespace FrameGraph

/-- The iterations of a use within an iteration of its pass. -/
def Frame.useIterations (frame : Frame) (n : UInt32) : Repetition → List UInt32
  | .once => [n]
  | .counted source => FrameGraph.iterations (frame.count source)

def Use.account (u : Use) (m : UInt32) : UseAccount where
  resource := Template.expand u.name m
  access := u.access
  binding := ⟨u.binding.map (·.resolve m), u.arrayIndex.map (·.resolve m)⟩

/-- All instances of the use within an iteration of its pass. -/
def Use.accounts (u : Use) (frame : Frame) (n : UInt32) : List UseAccount :=
  (frame.useIterations n u.repetition).map u.account

/-- An attachment at an iteration; `clearValue` wraps what it is cleared to. -/
def Attachment.account {γ : Type} (clearValue : γ → ClearValue) (a : Attachment γ) (readOnly : Bool)
    (n : UInt32) : AttachmentAccount where
  image := Template.expand a.image n
  description :=
    { load := a.load
      store := a.store
      clear := a.clear.map clearValue
      range := a.slice.map fun s => ⟨s.mipLevel, s.baseLayer.resolve n, s.layerCount⟩ }
  readOnly := readOnly

/-- One instance of the pass, complete. -/
def Pass.account {ε : Type} (d : Pass) (frame : Frame) (executors : String → Option ε) (n : UInt32) :
    PassAccount ε where
  name := Template.expand d.name n
  type := d.work.type
  flags := d.flags
  domain := d.work.domain?
  executor := executors d.execute
  colors := d.attachments.colors.map fun a => a.account .color false n
  depth := d.attachments.depth.map fun a => a.attachment.account .depthStencil a.readOnly n
  reads := d.reads.flatMap (·.accounts frame n)
  writes := d.writes.flatMap (·.accounts frame n)

/-- The instances of all passes of the graph, complete and in order. -/
def Graph.passAccounts {ε : Type} (g : Graph) (frame : Frame) (executors : String → Option ε) :
    List (PassAccount ε) :=
  g.passes.flatMap fun d =>
    (frame.iterations d.condition d.repetition).map (d.account frame executors)

/-- All that a build declares if nothing stands in its way. -/
def Graph.account {ε : Type} (g : Graph) (frame : Frame) (executors : String → Option ε) :
    Account ε where
  images := g.imageRequests frame
  buffers := g.bufferRequests frame
  passes := g.passAccounts frame executors
  presented := g.outputs.present.toList
  exportedImages := g.outputs.exportImages
  exportedBuffers := g.outputs.exportBuffers

namespace Plan

open Build Document

variable {ε α : Type} {frame : Frame} {scope : Scope}

theorem forall_mem_iterations {f : UInt32 → Plan ε} {n : UInt32} {P : PlanStep ε → Prop}
    (h : ∀ m, ∀ s ∈ f m, P s) : ∀ s ∈ (iterations n).flatMap f, P s := by
  intro s hs
  obtain ⟨m, _, hm⟩ := List.mem_flatMap.1 hs
  exact h m s hm

theorem forall_mem_mapIdx {f : Nat → α → Plan ε} {P : PlanStep ε → Prop}
    (h : ∀ i a, ∀ s ∈ f i a, P s) (as : List α) : ∀ s ∈ (as.mapIdx f).flatten, P s := by
  intro s hs
  obtain ⟨p, hp, hsp⟩ := List.mem_flatten.1 hs
  obtain ⟨i, hi, rfl⟩ := List.mem_mapIdx.1 hp
  exact h i _ s hsp

theorem stopless_refer {names : List String} {name : String} {e : Error}
    {c : Command String String Unit ε} : Stopless (refer names name e c) ↔ name ∈ names := by
  unfold refer
  by_cases h : name ∈ names <;> simp [h, Stopless, PlanStep.isStop]

theorem closed_refer {a : Account ε} {names : List String} {name : String} {e : Error}
    {c : Command String String Unit ε} (h : name ∈ names → a.Holds c) :
    Closed a (refer names name e c) := by
  unfold refer
  by_cases hn : name ∈ names
  · rw [if_pos hn]
    exact ⟨h hn, trivial⟩
  · rw [if_neg hn]
    trivial

theorem isInPass_refer {names : List String} {name : String} {e : Error}
    {c : Command String String Unit ε} (hc : c.isOutput = false) :
    ∀ s ∈ refer names name e c, s.isInPass = true := by
  unfold refer
  by_cases h : name ∈ names <;> simp [h, PlanStep.isInPass, hc]

theorem stopless_referAll {names : List String} {nameOf : α → String} {e : Nat → α → Error}
    {c : α → Command String String Unit ε} (as : List α) :
    Stopless (as.mapIdx fun i a => refer names (nameOf a) (e i a) (c a)).flatten ↔
      ∀ a ∈ as, nameOf a ∈ names := by
  have hrefer (i : Nat) (a : α) :
      Stopless (refer names (nameOf a) (e i a) (c a)) ↔ nameOf a ∈ names := stopless_refer
  exact stopless_mapIdx hrefer as

theorem refer_of_mem {names : List String} {name : String} (h : name ∈ names) (e : Error)
    (c : Command String String Unit ε) : refer names name e c = [.command c] :=
  if_pos h

/-- References that are all in scope are plain commands. -/
theorem referAll_of_mem {names : List String} {nameOf : α → String} {e : Nat → α → Error}
    {c : α → Command String String Unit ε} {as : List α} (h : ∀ a ∈ as, nameOf a ∈ names) :
    (as.mapIdx fun i a => refer names (nameOf a) (e i a) (c a)).flatten =
      as.map fun a => .command (c a) := by
  induction as using List.reverseRecOn with
  | nil => rfl
  | append_singleton as a ih =>
    rw [List.mapIdx_concat, List.flatten_append, List.flatten_singleton, List.map_append,
      List.map_singleton, ih fun b hb => h b (List.mem_append_left _ hb), refer_of_mem (h a (by simp))]

/-- The frame leaves the image some layers. -/
def HasLayers (frame : Frame) (r : Resource) : Prop :=
  ∀ i, r.body = .image i → frame.layers i.layers ≠ 0

theorem stopless_ofResourceAt (position : Nat) (r : Resource) (n : UInt32) :
    Stopless (ofResourceAt frame position r n : Plan ε) ↔ HasLayers frame r := by
  unfold ofResourceAt HasLayers
  cases hb : r.body with
  | buffer b => simp [Stopless, PlanStep.isStop]
  | image i =>
    by_cases hl : frame.layers i.layers = 0 <;>
      simp [hl, Resource.imageRequest, Stopless, PlanStep.isStop]

theorem stopless_ofResource (position : Nat) (r : Resource) :
    Stopless (ofResource frame position r : Plan ε) ↔
      ∀ n ∈ frame.iterations r.condition r.repetition, HasLayers frame r := by
  unfold ofResource Frame.iterations
  by_cases ha : frame.admits r.condition = true
  · rw [if_pos ha, if_pos ha, stopless_flatMap]
    simp only [stopless_ofResourceAt]
  · rw [if_neg ha, if_neg ha]
    simp [Stopless, PlanStep.isStop]

theorem isOfResource_ofResource (position : Nat) (r : Resource) :
    ∀ s ∈ (ofResource frame position r : Plan ε), s.isOfResource = true := by
  unfold ofResource
  by_cases ha : frame.admits r.condition = true
  · rw [if_pos ha]
    refine forall_mem_iterations fun n => ?_
    unfold ofResourceAt
    cases r.body with
    | buffer b => simp [PlanStep.isOfResource]
    | image i => dsimp only; split <;> simp [PlanStep.isOfResource]
  · rw [if_neg ha]
    simp [PlanStep.isOfResource]

theorem after_ofResourceAt (a : Account ε) (position : Nat) (r : Resource) (n : UInt32)
    (hs : Stopless (ofResourceAt frame position r n : Plan ε)) :
    a.after (ofResourceAt frame position r n) =
      a.addResources (r.imagesAt frame [n]) (r.buffersAt [n]) := by
  have hl := (stopless_ofResourceAt position r n).1 hs
  unfold ofResourceAt Resource.imagesAt Resource.buffersAt
  cases hb : r.body with
  | buffer b => simp [Account.after, Account.apply, Account.addResources]
  | image i =>
    dsimp only
    rw [if_neg (show ¬(r.imageRequest i frame n).description.layers = 0 from hl i hb)]
    simp [Account.after, Account.apply, Account.addResources]

theorem after_instances (a : Account ε) (position : Nat) (r : Resource) {ns : List UInt32}
    (hs : Stopless (ns.flatMap (ofResourceAt frame position r) : Plan ε)) :
    a.after (ns.flatMap (ofResourceAt frame position r)) =
      a.addResources (r.imagesAt frame ns) (r.buffersAt ns) := by
  have hfold := foldl_flatMap_of_stopless
    (fun n b hn => after_ofResourceAt b position r n hn) a hs
  rw [Account.foldl_addResources, ← r.imagesAt_eq_flatMap, ← r.buffersAt_eq_flatMap] at hfold
  exact hfold

theorem after_ofResource (a : Account ε) (position : Nat) (r : Resource)
    (hs : Stopless (ofResource frame position r : Plan ε)) :
    a.after (ofResource frame position r) =
      a.addResources (r.imagesAt frame (frame.iterations r.condition r.repetition))
        (r.buffersAt (frame.iterations r.condition r.repetition)) := by
  unfold ofResource at hs ⊢
  unfold Frame.iterations
  by_cases ha : frame.admits r.condition = true
  · rw [if_pos ha] at hs ⊢
    rw [if_pos ha]
    exact after_instances a position r hs
  · rw [if_neg ha, if_neg ha, r.imagesAt_nil, r.buffersAt_nil, Account.addResources_nil]
    rfl

theorem after_resources (a : Account ε) (rs : List Resource)
    (hs : Stopless (rs.mapIdx (ofResource frame) : List (Plan ε)).flatten) :
    a.after (rs.mapIdx (ofResource frame)).flatten =
      a.addResources
        (rs.flatMap fun r => r.imagesAt frame (frame.iterations r.condition r.repetition))
        (rs.flatMap fun r => r.buffersAt (frame.iterations r.condition r.repetition)) := by
  have hfold := foldl_mapIdx_of_stopless (fun i r b hr => after_ofResource b i r hr) a hs
  rw [Account.foldl_addResources] at hfold
  exact hfold

/-- The names in scope that a resource of the type may have. -/
def Scope.names (scope : Scope) : ResourceType → List String
  | .image => scope.images
  | .buffer => scope.buffers

theorem stopless_ofUseAt (mode : UseMode) (p : Path) (u : Use) (n : UInt32) :
    Stopless (ofUseAt scope mode p u n : Plan ε) ↔
      Template.expand u.name n ∈ scope.names u.access.type := by
  unfold ofUseAt
  cases u.access with
  | image access => exact stopless_refer
  | buffer access => exact stopless_refer

theorem stopless_ofUse (mode : UseMode) (p : Path) (n : UInt32) (u : Use) :
    Stopless (ofUse frame scope mode p n u : Plan ε) ↔
      ∀ m ∈ frame.useIterations n u.repetition,
        Template.expand u.name m ∈ scope.names u.access.type := by
  unfold ofUse Frame.useIterations
  cases u.repetition with
  | once => simp only [stopless_ofUseAt, List.mem_singleton, forall_eq]
  | counted source =>
    dsimp only
    rw [stopless_flatMap]
    simp only [stopless_ofUseAt]

theorem stopless_ofUses (mode : UseMode) (p : Path) (n : UInt32) (uses : List Use) :
    Stopless (ofUses frame scope mode p n uses : Plan ε) ↔
      ∀ u ∈ uses, ∀ m ∈ frame.useIterations n u.repetition,
        Template.expand u.name m ∈ scope.names u.access.type :=
  stopless_mapIdx (fun i u => stopless_ofUse mode (usePath p mode i) n u) uses

theorem stopless_ofAttachments (p : Path) (a : Attachments) (n : UInt32) :
    Stopless (ofAttachments scope p a n : Plan ε) ↔
      (∀ c ∈ a.colors, Template.expand c.image n ∈ scope.images) ∧
      (∀ d ∈ a.depth, Template.expand d.attachment.image n ∈ scope.images) := by
  unfold ofAttachments
  rw [stopless_append, stopless_flatMap]
  simp only [stopless_refer, Option.mem_toList, Option.mem_def]
  exact and_congr_left' (stopless_referAll a.colors)

/-- All that an instance of the pass refers to is there: its executor, and the resources that it
attaches and uses. -/
structure Provided (frame : Frame) (executors : String → Option ε) (scope : Scope) (d : Pass)
    (n : UInt32) : Prop where
  executor : (executors d.execute).isSome = true
  colors : ∀ c ∈ d.attachments.colors, Template.expand c.image n ∈ scope.images
  depth : ∀ a ∈ d.attachments.depth, Template.expand a.attachment.image n ∈ scope.images
  reads : ∀ u ∈ d.reads, ∀ m ∈ frame.useIterations n u.repetition,
    Template.expand u.name m ∈ scope.names u.access.type
  writes : ∀ u ∈ d.writes, ∀ m ∈ frame.useIterations n u.repetition,
    Template.expand u.name m ∈ scope.names u.access.type

/-- What an instance of the pass is told once it is requested. -/
def inPass (frame : Frame) (scope : Scope) (position : Nat) (d : Pass) (executor : ε) (n : UInt32) :
    Plan ε :=
  .command (.setFlags () d.flags) ::
    d.work.domain?.toList.map (fun domain => .command (.setDomain () domain)) ++
    [.command (.setExecutor () executor)] ++
    ofAttachments scope (passPath position) d.attachments n ++
    ofUses frame scope .read (passPath position) n d.reads ++
    ofUses frame scope .write (passPath position) n d.writes ++
    [.note .trace (declaredPass (d.request n) d.execute)]

/-- What an instance of the pass is told first: its flags, its domain if it has one, and its executor. -/
def heading (d : Pass) (executor : ε) : Plan ε :=
  .command (.setFlags () d.flags) ::
    d.work.domain?.toList.map (fun domain => .command (.setDomain () domain)) ++
    [.command (.setExecutor () executor)]

theorem stopless_heading (d : Pass) (executor : ε) : Stopless (heading d executor) := by
  unfold heading
  cases d.work.domain? <;> simp [Stopless, PlanStep.isStop]

theorem isInPass_heading (d : Pass) (executor : ε) :
    ∀ s ∈ heading d executor, s.isInPass = true := by
  unfold heading
  cases d.work.domain? <;> simp [PlanStep.isInPass, Command.isOutput]

/-- A pass that was just requested and told its heading. -/
def headed (d : Pass) (executor : ε) (n : UInt32) : PassAccount ε :=
  { name := (d.request n).name, type := (d.request n).type, flags := d.flags
    domain := d.work.domain?, executor := some executor }

theorem foldl_heading (d : Pass) (executor : ε) (n : UInt32) :
    (heading d executor).foldl PassAccount.apply
        { name := (d.request n).name, type := (d.request n).type } =
      headed d executor n := by
  unfold heading headed
  cases hd : d.work.domain? <;> simp [PassAccount.apply, PassAccount.tell]

theorem inPass_eq (position : Nat) (d : Pass) (executor : ε) (n : UInt32) :
    inPass frame scope position d executor n =
      heading d executor ++
        ofAttachments scope (passPath position) d.attachments n ++
        ofUses frame scope .read (passPath position) n d.reads ++
        ofUses frame scope .write (passPath position) n d.writes ++
        [.note .trace (declaredPass (d.request n) d.execute)] :=
  rfl

theorem ofPassAt_of_none {executors : String → Option ε} {d : Pass}
    (he : executors d.execute = none) (position : Nat) (n : UInt32) :
    ofPassAt frame executors scope position d n =
      [.stop (noExecutor position d.execute (d.request n).name)] := by
  unfold ofPassAt
  rw [he]

theorem ofPassAt_of_some {executors : String → Option ε} {d : Pass} {executor : ε}
    (he : executors d.execute = some executor) (position : Nat) (n : UInt32) :
    ofPassAt frame executors scope position d n =
      .pass (d.request n) :: inPass frame scope position d executor n := by
  unfold ofPassAt
  rw [he]
  rfl

theorem stopless_inPass (position : Nat) (d : Pass) (executor : ε) (n : UInt32) :
    Stopless (inPass frame scope position d executor n) ↔
      Stopless (ofAttachments scope (passPath position) d.attachments n : Plan ε) ∧
      Stopless (ofUses frame scope .read (passPath position) n d.reads : Plan ε) ∧
      Stopless (ofUses frame scope .write (passPath position) n d.writes : Plan ε) := by
  have hhead := stopless_heading d executor
  have hlast : Stopless ([.note .trace (declaredPass (d.request n) d.execute)] : Plan ε) := by
    simp [Stopless, PlanStep.isStop]
  rw [inPass_eq, stopless_append, stopless_append, stopless_append, stopless_append]
  constructor
  · intro h
    obtain ⟨⟨⟨⟨-, ha⟩, hr⟩, hw⟩, -⟩ := h
    exact ⟨ha, hr, hw⟩
  · intro h
    obtain ⟨ha, hr, hw⟩ := h
    exact ⟨⟨⟨⟨hhead, ha⟩, hr⟩, hw⟩, hlast⟩

theorem stopless_ofPassAt (executors : String → Option ε) (position : Nat) (d : Pass) (n : UInt32) :
    Stopless (ofPassAt frame executors scope position d n) ↔
      Provided frame executors scope d n := by
  cases he : executors d.execute with
  | none =>
    rw [ofPassAt_of_none he]
    constructor
    · intro h
      exact absurd (h _ (List.mem_singleton.2 rfl)) (by simp [PlanStep.isStop])
    · intro h
      exact absurd h.executor (by simp [he])
  | some executor =>
    rw [ofPassAt_of_some he, stopless_cons, stopless_inPass, stopless_ofAttachments,
      stopless_ofUses, stopless_ofUses]
    constructor
    · intro h
      obtain ⟨-, ⟨hc, hd⟩, hr, hw⟩ := h
      exact ⟨by simp [he], hc, hd, hr, hw⟩
    · intro h
      obtain ⟨-, hc, hd, hr, hw⟩ := h
      exact ⟨rfl, ⟨hc, hd⟩, hr, hw⟩

theorem stopless_ofPass (executors : String → Option ε) (position : Nat) (d : Pass) :
    Stopless (ofPass frame executors scope position d) ↔
      ∀ n ∈ frame.iterations d.condition d.repetition, Provided frame executors scope d n := by
  unfold ofPass Frame.iterations
  by_cases ha : frame.admits d.condition = true
  · rw [if_pos ha, if_pos ha, stopless_flatMap]
    simp only [stopless_ofPassAt]
  · rw [if_neg ha, if_neg ha]
    simp [Stopless, PlanStep.isStop]

theorem isInPass_ofUses (mode : UseMode) (p : Path) (n : UInt32) (uses : List Use) :
    ∀ s ∈ (ofUses frame scope mode p n uses : Plan ε), s.isInPass = true := by
  refine forall_mem_mapIdx (fun i u => ?_) uses
  have hat (m : UInt32) :
      ∀ s ∈ (ofUseAt scope mode (usePath p mode i) u m : Plan ε), s.isInPass = true := by
    unfold ofUseAt
    cases u.access with
    | image access => exact isInPass_refer rfl
    | buffer access => exact isInPass_refer rfl
  unfold ofUse
  cases u.repetition with
  | once => exact hat n
  | counted source => exact forall_mem_iterations hat

theorem isInPass_ofAttachments (p : Path) (a : Attachments) (n : UInt32) :
    ∀ s ∈ (ofAttachments scope p a n : Plan ε), s.isInPass = true := by
  refine List.forall_mem_append.2 ⟨forall_mem_mapIdx (fun i c => isInPass_refer rfl) _, ?_⟩
  intro s hs
  obtain ⟨d, -, hd⟩ := List.mem_flatMap.1 hs
  exact isInPass_refer rfl s hd

theorem foldl_ofUseAt (a : PassAccount ε) (mode : UseMode) (p : Path) (u : Use) (n : UInt32)
    (hs : Stopless (ofUseAt scope mode p u n : Plan ε)) :
    (ofUseAt scope mode p u n).foldl PassAccount.apply a = a.use [u.account n] mode := by
  have hn := (stopless_ofUseAt mode p u n).1 hs
  unfold ofUseAt Use.account
  cases hu : u.access with
  | image access =>
    rw [hu] at hn
    exact congrArg (List.foldl PassAccount.apply a) (refer_of_mem hn _ _)
  | buffer access =>
    rw [hu] at hn
    exact congrArg (List.foldl PassAccount.apply a) (refer_of_mem hn _ _)

theorem foldl_useInstances (a : PassAccount ε) (mode : UseMode) (p : Path) (u : Use)
    {ms : List UInt32} (hs : Stopless (ms.flatMap (ofUseAt scope mode p u) : Plan ε)) :
    (ms.flatMap (ofUseAt scope mode p u)).foldl PassAccount.apply a =
      a.use (ms.map u.account) mode := by
  have hfold := foldl_flatMap_of_stopless (fun m b hm => foldl_ofUseAt b mode p u m hm) a hs
  rw [PassAccount.foldl_use, ← List.map_eq_flatMap] at hfold
  exact hfold

theorem foldl_ofUse (a : PassAccount ε) (mode : UseMode) (p : Path) (n : UInt32) (u : Use)
    (hs : Stopless (ofUse frame scope mode p n u : Plan ε)) :
    (ofUse frame scope mode p n u).foldl PassAccount.apply a = a.use (u.accounts frame n) mode := by
  unfold ofUse at hs ⊢
  unfold Use.accounts Frame.useIterations
  cases hu : u.repetition with
  | once =>
    rw [hu] at hs
    exact foldl_ofUseAt a mode p u n hs
  | counted source =>
    rw [hu] at hs
    exact foldl_useInstances a mode p u hs

theorem foldl_ofUses (a : PassAccount ε) (mode : UseMode) (p : Path) (n : UInt32) (uses : List Use)
    (hs : Stopless (ofUses frame scope mode p n uses : Plan ε)) :
    (ofUses frame scope mode p n uses).foldl PassAccount.apply a =
      a.use (uses.flatMap (·.accounts frame n)) mode := by
  have hfold := foldl_mapIdx_of_stopless
    (fun i u b hu => foldl_ofUse b mode (usePath p mode i) n u hu) a hs
  rw [PassAccount.foldl_use] at hfold
  exact hfold

theorem foldl_addColors (a : PassAccount ε) (cs : List (Attachment Color)) (n : UInt32) :
    (cs.map fun c => .command (.addColor () (Template.expand c.image n)
      (c.describe .color n))).foldl PassAccount.apply a =
        { a with colors := a.colors ++ cs.map fun c => c.account .color false n } := by
  induction cs generalizing a with
  | nil => simp
  | cons c cs ih =>
    rw [List.map_cons, List.foldl_cons, ih]
    simp [PassAccount.apply, PassAccount.tell, Attachment.account, Attachment.describe, Slice.range]

theorem foldl_ofAttachments (a : PassAccount ε) (hd : a.depth = none) (p : Path) (as : Attachments)
    (n : UInt32) (hs : Stopless (ofAttachments scope p as n : Plan ε)) :
    (ofAttachments scope p as n).foldl PassAccount.apply a =
      { a with
        colors := a.colors ++ as.colors.map fun c => c.account .color false n
        depth := as.depth.map fun d => d.attachment.account .depthStencil d.readOnly n } := by
  obtain ⟨hcolors, hdepth⟩ := (stopless_ofAttachments p as n).1 hs
  unfold ofAttachments
  dsimp only
  rw [List.foldl_append, referAll_of_mem hcolors, foldl_addColors]
  cases has : as.depth with
  | none =>
    rw [Option.toList_none, List.flatMap_nil, List.foldl_nil, hd]
    rfl
  | some d =>
    rw [Option.toList_some, List.flatMap_singleton, refer_of_mem (hdepth d has)]
    rfl

theorem isInPass_inPass (position : Nat) (d : Pass) (executor : ε) (n : UInt32) :
    ∀ s ∈ inPass frame scope position d executor n, s.isInPass = true := by
  rw [inPass_eq, List.forall_mem_append, List.forall_mem_append, List.forall_mem_append,
    List.forall_mem_append]
  refine ⟨⟨⟨⟨isInPass_heading d executor, isInPass_ofAttachments _ _ n⟩, isInPass_ofUses _ _ n _⟩,
    isInPass_ofUses _ _ n _⟩, ?_⟩
  simp [PlanStep.isInPass]

/-- Told all of it, a pass that was just requested is complete. -/
theorem foldl_inPass {executors : String → Option ε} {d : Pass} {executor : ε}
    (he : executors d.execute = some executor) (position : Nat) (n : UInt32)
    (hs : Stopless (inPass frame scope position d executor n)) :
    (inPass frame scope position d executor n).foldl PassAccount.apply
        { name := (d.request n).name, type := (d.request n).type } =
      d.account frame executors n := by
  obtain ⟨ha, hr, hw⟩ := (stopless_inPass position d executor n).1 hs
  rw [inPass_eq, List.foldl_append, List.foldl_append, List.foldl_append, List.foldl_append,
    foldl_heading, foldl_ofAttachments (headed d executor n) rfl _ _ _ ha, foldl_ofUses _ _ _ _ _ hr,
    foldl_ofUses _ _ _ _ _ hw]
  unfold Pass.account
  rw [he]
  rfl

theorem after_ofPassAt (a : Account ε) (executors : String → Option ε) (position : Nat) (d : Pass)
    (n : UInt32) (hs : Stopless (ofPassAt frame executors scope position d n)) :
    a.after (ofPassAt frame executors scope position d n) =
      a.addPasses [d.account frame executors n] := by
  cases he : executors d.execute with
  | none =>
    rw [ofPassAt_of_none he] at hs
    exact absurd (hs _ (List.mem_singleton.2 rfl)) (by simp [PlanStep.isStop])
  | some executor =>
    rw [ofPassAt_of_some he] at hs ⊢
    rw [Account.after_cons]
    show (a.addPasses [_]).after _ = _
    rw [after_addPasses a (isInPass_inPass position d executor n),
      foldl_inPass he position n (stopless_cons.1 hs).2]

theorem after_passInstances (a : Account ε) (executors : String → Option ε) (position : Nat) (d : Pass)
    {ns : List UInt32} (hs : Stopless (ns.flatMap (ofPassAt frame executors scope position d))) :
    a.after (ns.flatMap (ofPassAt frame executors scope position d)) =
      a.addPasses (ns.map (d.account frame executors)) := by
  have hfold := foldl_flatMap_of_stopless
    (fun n b hn => after_ofPassAt b executors position d n hn) a hs
  rw [Account.foldl_addPasses, ← List.map_eq_flatMap] at hfold
  exact hfold

theorem after_ofPass (a : Account ε) (executors : String → Option ε) (position : Nat) (d : Pass)
    (hs : Stopless (ofPass frame executors scope position d)) :
    a.after (ofPass frame executors scope position d) =
      a.addPasses
        ((frame.iterations d.condition d.repetition).map (d.account frame executors)) := by
  unfold ofPass at hs ⊢
  unfold Frame.iterations
  by_cases ha : frame.admits d.condition = true
  · rw [if_pos ha] at hs ⊢
    rw [if_pos ha]
    exact after_passInstances a executors position d hs
  · rw [if_neg ha, if_neg ha]
    exact a.addPasses_nil.symm

theorem after_passes (a : Account ε) (executors : String → Option ε) (ds : List Pass)
    (hs : Stopless (ds.mapIdx (ofPass frame executors scope)).flatten) :
    a.after (ds.mapIdx (ofPass frame executors scope)).flatten =
      a.addPasses (ds.flatMap fun d =>
        (frame.iterations d.condition d.repetition).map (d.account frame executors)) := by
  have hfold := foldl_mapIdx_of_stopless (fun i d b hd => after_ofPass b executors i d hd) a hs
  rw [Account.foldl_addPasses] at hfold
  exact hfold

theorem stopless_ofOutputs (o : Outputs) :
    Stopless (ofOutputs scope o : Plan ε) ↔
      (∀ name ∈ o.present, name ∈ scope.images) ∧ (∀ name ∈ o.exportImages, name ∈ scope.images) ∧
      (∀ name ∈ o.exportBuffers, name ∈ scope.buffers) := by
  unfold ofOutputs
  dsimp only
  rw [stopless_append, stopless_append, stopless_flatMap, and_assoc]
  simp only [stopless_refer, Option.mem_toList, Option.mem_def]
  exact and_congr_right' (and_congr (stopless_referAll o.exportImages)
    (stopless_referAll o.exportBuffers))

theorem after_exportImages (a : Account ε) (names : List String) :
    a.after (names.map fun name => .command (.exportImage name)) =
      { a with exportedImages := a.exportedImages ++ names } := by
  induction names generalizing a with
  | nil => simp [Account.after]
  | cons name names ih =>
    rw [List.map_cons, Account.after_cons, ih]
    simp [Account.apply, Account.tell]

theorem after_exportBuffers (a : Account ε) (names : List String) :
    a.after (names.map fun name => .command (.exportBuffer name)) =
      { a with exportedBuffers := a.exportedBuffers ++ names } := by
  induction names generalizing a with
  | nil => simp [Account.after]
  | cons name names ih =>
    rw [List.map_cons, Account.after_cons, ih]
    simp [Account.apply, Account.tell]

theorem after_ofOutputs (a : Account ε) (o : Outputs)
    (hs : Stopless (ofOutputs scope o : Plan ε)) :
    a.after (ofOutputs scope o) =
      { a with
        presented := a.presented ++ o.present.toList
        exportedImages := a.exportedImages ++ o.exportImages
        exportedBuffers := a.exportedBuffers ++ o.exportBuffers } := by
  obtain ⟨hpresent, himages, hbuffers⟩ := (stopless_ofOutputs o).1 hs
  unfold ofOutputs
  dsimp only
  rw [Account.after_append, Account.after_append, referAll_of_mem himages,
    referAll_of_mem hbuffers, after_exportImages, after_exportBuffers]
  cases ho : o.present with
  | none =>
    rw [Option.toList_none, List.flatMap_nil, Account.after_nil, List.append_nil]
  | some name =>
    rw [Option.toList_some, List.flatMap_singleton, refer_of_mem (hpresent name ho)]
    rfl

end Plan

namespace Graph

open Plan

variable {ε : Type}

/-- The names of the resources of the graph in a frame. -/
def scope (g : Graph) (frame : Frame) : Scope :=
  ⟨(g.imageRequests frame).map (·.name), (g.bufferRequests frame).map (·.name)⟩

theorem plan_eq (g : Graph) (frame : Frame) (executors : String → Option ε) :
    g.plan frame executors =
      (g.resources.mapIdx (ofResource frame)).flatten ++
        ((g.passes.mapIdx (ofPass frame executors (g.scope frame))).flatten ++
          (ofOutputs (g.scope frame) g.outputs ++
            [.note .debug (Build.finished g.name (g.stats frame))])) := by
  simp [plan, scope]

/-- A plan runs to its end exactly if every image has layers, all that a pass refers to is there, and
so is every output. -/
theorem stopless_plan (g : Graph) (frame : Frame) (executors : String → Option ε) :
    Stopless (g.plan frame executors) ↔
      (∀ r ∈ g.resources, ∀ n ∈ frame.iterations r.condition r.repetition, HasLayers frame r) ∧
      (∀ d ∈ g.passes, ∀ n ∈ frame.iterations d.condition d.repetition,
        Provided frame executors (g.scope frame) d n) ∧
      (∀ name ∈ g.outputs.present, name ∈ (g.scope frame).images) ∧
      (∀ name ∈ g.outputs.exportImages, name ∈ (g.scope frame).images) ∧
      (∀ name ∈ g.outputs.exportBuffers, name ∈ (g.scope frame).buffers) := by
  have hlast : Stopless
      ([.note .debug (Build.finished g.name (g.stats frame))] : Plan ε) := by
    simp [Stopless, PlanStep.isStop]
  rw [plan_eq, stopless_append, stopless_append, stopless_append, stopless_ofOutputs,
    stopless_mapIdx stopless_ofResource, stopless_mapIdx (stopless_ofPass executors)]
  constructor
  · intro h
    obtain ⟨hr, hp, ho, -⟩ := h
    exact ⟨hr, hp, ho⟩
  · intro h
    obtain ⟨hr, hp, ho⟩ := h
    exact ⟨hr, hp, ho, hlast⟩

theorem after_plan (g : Graph) (frame : Frame) (executors : String → Option ε)
    (hs : Stopless (g.plan frame executors)) :
    ({} : Account ε).after (g.plan frame executors) = g.account frame executors := by
  rw [plan_eq, stopless_append, stopless_append, stopless_append] at hs
  rw [plan_eq, Account.after_append, Account.after_append, Account.after_append,
    after_resources _ _ hs.1, after_passes _ _ _ hs.2.1, after_ofOutputs _ _ hs.2.2.1]
  rfl

end Graph

end FrameGraph
