import FrameGraph.Proofs.Plan.Cut
import FrameGraph.Proofs.Recording.Build

namespace FrameGraph

variable {ε : Type}

namespace Recording

open Plan

variable {base r : Recording ε} {a : Account ε}

/-- A step for which there is no room is one that may end a plan. -/
theorem mayEnd_of_not_room {x : PlanStep ε} (hroom : Room base a)
    (hx : x.isStop = false → ¬Room base (a.apply x)) : x.mayEnd = true := by
  have hnothing (hdeclared : ∀ kind, x.declared kind = []) (hpresented : x.presented = []) :
      Room base (a.apply x) := by
    rw [room_apply_iff]
    refine ⟨hroom, fun kind => ?_, ?_⟩
    · rw [hdeclared kind]
      exact List.forall_mem_nil _
    · rw [hpresented]
      exact hroom.presented
  cases x with
  | command c =>
    cases c with
    | setPresent => rfl
    | _ => exact absurd (hnothing (fun _ => rfl) rfl) (hx rfl)
  | note severity message => exact absurd (hnothing (fun _ => rfl) rfl) (hx rfl)
  | _ => rfl

/-- A run extends the recording by the account of its plan, or by that of the steps before a cut. -/
theorem Records.run_or_cut {p : Plan ε} {h : Handles ImageKey BufferKey PassKey}
    (hr : Records base a h r) (hroom : Room base a) (hp : Closed a p) :
    (∃ r' log h', Plan.run engine p h r = ⟨r', log, .ok h'⟩ ∧ Stopless p ∧ Room base (a.after p) ∧
      Records base (a.after p) h' r') ∨
    (∃ r' log e done x, Plan.run engine p h r = ⟨r', log, .error e⟩ ∧ Cut p done x ∧
      Extends base (a.after done) r') := by
  obtain hok | ⟨r', log, e, h', done, x, rest, hrun, hsplit, hs, hroom', hr', hx⟩ :=
    hr.run hroom hp
  · exact .inl hok
  · exact .inr ⟨r', log, e, done, x, hrun, ⟨⟨rest, hsplit⟩, hs, mayEnd_of_not_room hroom' hx⟩,
      hr'.content⟩

/-- A run of steps about outputs adds nothing else, and may end anywhere. -/
theorem Records.exists_extends_outputs {p : Plan ε} {h : Handles ImageKey BufferKey PassKey}
    (hr : Records base a h r) (hroom : Room base a) (hp : Closed a p)
    (houtputs : ∀ y ∈ p, y.isOfOutput = true) :
    ∃ b, Extends base b (Plan.run engine p h r).state ∧ b.images = a.images ∧
      b.buffers = a.buffers ∧ b.passes = a.passes := by
  obtain ⟨r', log, h', hrun, -, -, hr'⟩ | ⟨r', log, e, done, x, hrun, hcut, hextends⟩ :=
    hr.run_or_cut hroom hp
  · rw [hrun]
    exact ⟨_, hr'.content, after_of_isOfOutput a houtputs⟩
  · rw [hrun]
    have hdone : ∀ y ∈ done, y.isOfOutput = true := by
      obtain ⟨rest, rfl⟩ := hcut.split
      exact (List.forall_mem_append.1 houtputs).1
    exact ⟨_, hextends, after_of_isOfOutput a hdone⟩

/-- All that the first recording holds, the second one holds under the same keys and names, with what
was added after it. -/
structure Keeping (s s' : Recording ε) : Prop where
  images : ∀ k q, s.image? k = some q → s'.image? k = some q
  imageKeys : ∀ name k, s.imageKey? name = some k → s'.imageKey? name = some k
  buffers : ∀ k q, s.buffer? k = some q → s'.buffer? k = some q
  bufferKeys : ∀ name k, s.bufferKey? name = some k → s'.bufferKey? name = some k
  passes : ∀ k p, s.pass? k = some p → s'.pass? k = some p
  passKeys : ∀ name k, s.passKey? name = some k → s'.passKey? name = some k
  present : ∀ k, s.present = some k → s'.present = some k
  exportedImages : s.exportedImages <+: s'.exportedImages
  exportedBuffers : s.exportedBuffers <+: s'.exportedBuffers

/-- A list of at most one member that grows keeps the member. -/
theorem eq_some_mono {α : Type} {x y : Option α} (h : x.toList <+: y.toList) {a : α}
    (hx : x = some a) : y = some a := by
  subst hx
  obtain ⟨rest, hrest⟩ := h
  cases y with
  | none => exact absurd hrest (by simp)
  | some b =>
    obtain ⟨rfl, -⟩ := List.cons.inj hrest
    rfl

theorem prefix_of_grown {α β : Type} {R : α → β → Prop} {base xs : List α} {bs : List β}
    (h : Grown R base bs xs) : base <+: xs := by
  obtain ⟨new, rfl, -⟩ := h
  exact List.prefix_append _ _

theorem Extends.keeping (h : Extends base a r) : Keeping base r where
  images _ _ := Store.get?_of_prefix h.imageStore.allotment ⟨a.images, h.images.symm⟩
  imageKeys := h.imageStore.keys
  buffers _ _ := Store.get?_of_prefix h.bufferStore.allotment ⟨a.buffers, h.buffers.symm⟩
  bufferKeys := h.bufferStore.keys
  passes _ _ := Store.get?_of_prefix h.passStore.allotment (prefix_of_grown h.passes)
  passKeys := h.passStore.keys
  present _ := eq_some_mono (prefix_of_grown h.presented)
  exportedImages := prefix_of_grown h.exportedImages
  exportedBuffers := prefix_of_grown h.exportedBuffers

/-- Without outputs in the account, those of the recording are those of the base. -/
theorem Extends.outputs_eq (h : Extends base a r) (hpresented : a.presented = [])
    (himages : a.exportedImages = []) (hbuffers : a.exportedBuffers = []) :
    r.present = base.present ∧ r.exportedImages = base.exportedImages ∧
      r.exportedBuffers = base.exportedBuffers := by
  have hgrown {α β : Type} {R : α → β → Prop} {xs ys : List α} {bs : List β} (h : Grown R xs bs ys)
      (hbs : bs = []) : ys = xs := by
    obtain ⟨new, rfl, hnew⟩ := h
    subst hbs
    obtain rfl := List.forall₂_nil_right_iff.1 hnew
    exact List.append_nil xs
  have hpresent : r.present.toList = base.present.toList := hgrown h.presented hpresented
  refine ⟨?_, hgrown h.exportedImages himages, hgrown h.exportedBuffers hbuffers⟩
  have hhead := congrArg List.head? hpresent
  rwa [Option.head?_toList, Option.head?_toList] at hhead

end Recording

namespace Graph

open Plan Recording

variable {g : Graph} {frame : Frame} {executors : String → Option ε}

/-- What a build leaves of a recording, whether it fails or not. -/
structure Leaves (g : Graph) (frame : Frame) (executors : String → Option ε) (s : Recording ε)
    (o : Outcome (Recording ε) Stats) : Prop where
  /-- nothing that was there is lost or changed -/
  keeping : Keeping s o.state
  /-- what is new are the first instances of the graph, in order -/
  images : ∃ new, o.state.images = s.images ++ new ∧ new <+: g.imageRequests frame
  buffers : ∃ new, o.state.buffers = s.buffers ++ new ∧ new <+: g.bufferRequests frame
  /-- each new pass has an executor, and the last one may be only a part of what it is to be -/
  passes : ∃ new, Grown (PassRecord.Shows o.state) s.passes new o.state.passes ∧
    (∀ b ∈ new, b.executor.isSome = true) ∧
    Begins PassAccount.PartOf new (g.passAccounts frame executors)
  /-- a build that succeeds leaves nothing out -/
  complete : ∀ stats, o.result = .ok stats → Extends s (g.account frame executors) o.state
  /-- outputs come only once all resources and passes are there -/
  outputs : ∀ e, (g.declare engine frame executors s).result = .error e →
    o.state.present = s.present ∧ o.state.exportedImages = s.exportedImages ∧
      o.state.exportedBuffers = s.exportedBuffers

theorem after_declarations (hs : Stopless (g.declarations frame executors)) :
    ({} : Account ε).after (g.declarations frame executors) =
      { images := g.imageRequests frame, buffers := g.bufferRequests frame
        passes := g.passAccounts frame executors } := by
  unfold declarations at hs ⊢
  rw [stopless_append] at hs
  rw [Account.after_append, after_resources _ _ hs.1, after_passes _ _ _ hs.2]
  rfl

/-- Before a cut among the declarations, the first of them are told, and no outputs. -/
theorem after_of_cut {done : Plan ε} {x : PlanStep ε}
    (h : Cut (g.declarations frame executors) done x) :
    ∃ images buffers passes, ({} : Account ε).after done = { images, buffers, passes } ∧
      images <+: g.imageRequests frame ∧ buffers <+: g.bufferRequests frame ∧
      (∀ b ∈ passes, b.executor.isSome = true) ∧
      Begins PassAccount.PartOf passes (g.passAccounts frame executors) := by
  obtain hresources | ⟨done', rfl, hpasses⟩ := h.of_append
  · obtain ⟨images, buffers, hafter, himages, hbuffers⟩ := hresources.of_resources {}
    exact ⟨images, buffers, [], hafter, himages, hbuffers, List.forall_mem_nil _, begins_nil _ _⟩
  · have hs := (stopless_append.1 h.stopless).1
    rw [Account.after_append, after_resources _ _ hs]
    obtain ⟨passes, hafter, hbegins⟩ := hpasses.of_passes _
    exact ⟨_, _, passes, hafter, List.prefix_refl _, List.prefix_refl _, hbegins⟩

theorem isOfOutput_closing (g : Graph) (frame : Frame) :
    ∀ y ∈ (g.closing frame : Plan ε), y.isOfOutput = true :=
  List.forall_mem_append.2 ⟨isOfOutput_ofOutputs g.outputs, List.forall_mem_singleton.2 rfl⟩

/-- Either the declarations end early and nothing follows them, or all of them are recorded. -/
theorem run_plan_cases (g : Graph) (frame : Frame) (executors : String → Option ε)
    (s : Recording ε) :
    (∃ images buffers passes,
      Extends s { images, buffers, passes } (run engine (g.plan frame executors) {} s).state ∧
      images <+: g.imageRequests frame ∧ buffers <+: g.bufferRequests frame ∧
      (∀ b ∈ passes, b.executor.isSome = true) ∧
      Begins PassAccount.PartOf passes (g.passAccounts frame executors)) ∨
    (∃ h a, (run engine (g.declarations frame executors) {} s).result = .ok h ∧
      Extends s a (run engine (g.plan frame executors) {} s).state ∧
      a.images = g.imageRequests frame ∧ a.buffers = g.bufferRequests frame ∧
      a.passes = g.passAccounts frame executors ∧ ∀ b ∈ a.passes, b.executor.isSome = true) := by
  have hclosed := g.closed_plan frame executors
  rw [plan_eq_declarations, closed_append] at hclosed
  rw [plan_eq_declarations, run_append]
  obtain ⟨r, log, h, hrun, hs, hroom, hr⟩ | ⟨r, log, e, done, x, hrun, hcut, hextends⟩ :=
    (records_empty s).run_or_cut (room_empty s) hclosed.1
  · have houtputs := hclosed.2 hs
    rw [after_declarations hs] at hr hroom houtputs
    obtain ⟨a, hextends, himages, hbuffers, hpasses⟩ :=
      hr.exists_extends_outputs hroom houtputs (g.isOfOutput_closing frame)
    have hexecutors : ∀ b ∈ a.passes, b.executor.isSome = true := by
      rw [hpasses]
      exact isSome_executors_of_stopless (stopless_append.1 hs).2
    rw [Action.bind_of_ok hrun, hrun]
    exact .inr ⟨h, a, rfl, hextends, himages, hbuffers, hpasses, hexecutors⟩
  · obtain ⟨images, buffers, passes, hafter, hbegins⟩ := after_of_cut hcut
    rw [hafter] at hextends
    rw [Action.bind_of_error hrun]
    exact .inl ⟨images, buffers, passes, hextends, hbegins⟩

/-- A build leaves of a recording what it held and a beginning of the graph. -/
theorem build_leaves (g : Graph) (frame : Frame) (executors : String → Option ε) (s : Recording ε) :
    g.Leaves frame executors s (g.build engine frame executors s) := by
  obtain ⟨hstate, -, -⟩ := g.build_agrees_run engine frame executors s
  obtain ⟨-, -, hdeclare⟩ := g.declare_agrees_run engine frame executors s
  obtain ⟨images, buffers, passes, hextends, himages, hbuffers, hexecutors, hpasses⟩ |
    ⟨h, a, hok, hextends, himages, hbuffers, hpasses, hexecutors⟩ :=
      g.run_plan_cases frame executors s
  · rw [← hstate] at hextends
    exact
      { keeping := hextends.keeping
        images := ⟨images, hextends.images, himages⟩
        buffers := ⟨buffers, hextends.buffers, hbuffers⟩
        passes := ⟨passes, hextends.passes, hexecutors, hpasses⟩
        complete := fun _ => extends_of_build
        outputs := fun _ _ => hextends.outputs_eq rfl rfl rfl }
  · rw [← hstate] at hextends
    exact
      { keeping := hextends.keeping
        images := ⟨a.images, hextends.images, himages ▸ List.prefix_refl _⟩
        buffers := ⟨a.buffers, hextends.buffers, hbuffers ▸ List.prefix_refl _⟩
        passes := ⟨a.passes, hextends.passes, hexecutors, .inl (hpasses ▸ List.prefix_refl _)⟩
        complete := fun _ => extends_of_build
        outputs := fun e he => by
          rw [hok, he] at hdeclare
          cases hdeclare }

/-- Without resources, the first pass of the cascades is told its heading, and then its attachment is
not there. -/
example : ((({ cascades with resources := [], resourceNames := ∅ } : Graph).build engine {} some
    {}).state.passes.map fun p =>
      (p.name, p.domain, p.executor, p.depth.isSome, p.bufferReads.length)) =
      [("shadow0", some .shadow, some "draw", false, 0)] := by
  decide +kernel

end Graph

end FrameGraph
