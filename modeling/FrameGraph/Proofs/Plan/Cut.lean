import FrameGraph.Proofs.Plan.Content

namespace FrameGraph

variable {ε α κ : Type}

theorem prefix_flatMap {f : κ → List α} {as : List α} {k : κ} (h : as <+: f k) (ks rest : List κ) :
    ks.flatMap f ++ as <+: (ks ++ k :: rest).flatMap f := by
  obtain ⟨bs, hbs⟩ := h
  refine ⟨bs ++ rest.flatMap f, ?_⟩
  rw [List.flatMap_append, List.flatMap_cons, ← hbs]
  simp

/-- The list begins as the other one does, except that its last member may be only a part of what it is
there. -/
def Begins (Part : α → α → Prop) (as bs : List α) : Prop :=
  as <+: bs ∨ ∃ done a b rest, as = done ++ [a] ∧ bs = done ++ b :: rest ∧ Part a b

variable {Part : α → α → Prop} {as bs : List α}

theorem begins_nil (Part : α → α → Prop) (bs : List α) : Begins Part [] bs := .inl List.nil_prefix

theorem Begins.append (h : Begins Part as bs) (first last : List α) :
    Begins Part (first ++ as) (first ++ (bs ++ last)) := by
  obtain ⟨rest, rfl⟩ | ⟨done, a, b, rest, rfl, rfl, hab⟩ := h
  · exact .inl ⟨rest ++ last, by simp⟩
  · exact .inr ⟨first ++ done, a, b, rest ++ last, by simp, by simp, hab⟩

theorem Begins.flatMap {f : κ → List α} {k : κ} (h : Begins Part as (f k)) (ks rest : List κ) :
    Begins Part (ks.flatMap f ++ as) ((ks ++ k :: rest).flatMap f) := by
  rw [List.flatMap_append, List.flatMap_cons]
  exact h.append (ks.flatMap f) (rest.flatMap f)

/-- The pass has been told its heading, and of its attachments and uses the first ones. -/
structure PassAccount.PartOf (p d : PassAccount ε) : Prop where
  name : p.name = d.name
  type : p.type = d.type
  flags : p.flags = d.flags
  domain : p.domain = d.domain
  executor : p.executor = d.executor
  colors : p.colors <+: d.colors
  depth : p.depth = none ∨ p.depth = d.depth
  reads : p.reads <+: d.reads
  writes : p.writes <+: d.writes

/-- An engine may refuse the step for what it has been asked before, or it is a stop. -/
def PlanStep.mayEnd : PlanStep ε → Bool
  | .image _ | .buffer _ | .pass _ | .command (.setPresent _) | .stop _ => true
  | .command _ | .note .. => false

/-- The step is about what leaves the graph, or does nothing to an account. -/
def PlanStep.isOfOutput : PlanStep ε → Bool
  | .command c => c.isOutput
  | .note .. | .stop _ => true
  | .image _ | .buffer _ | .pass _ => false

namespace Plan

open Build Document

variable {frame : Frame} {scope : Scope} {p q done : Plan ε} {x y : PlanStep ε}

/-- The plan has a step that may end it, and none before it stops. -/
structure Cut (p done : Plan ε) (x : PlanStep ε) : Prop where
  split : ∃ rest, p = done ++ x :: rest
  stopless : Stopless done
  mayEnd : x.mayEnd = true

theorem Cut.mem (h : Cut p done x) : x ∈ p := by
  obtain ⟨rest, rfl⟩ := h.split
  exact List.mem_append_right _ (List.mem_cons_self ..)

theorem Cut.of_append (h : Cut (p ++ q) done x) :
    Cut p done x ∨ ∃ done', done = p ++ done' ∧ Cut q done' x := by
  obtain ⟨⟨rest, heq⟩, hs, hx⟩ := h
  obtain ⟨done', rfl, rfl⟩ | ⟨bs, rfl, hrest⟩ := List.append_eq_append_iff.1 heq
  · exact .inr ⟨done', rfl, ⟨rest, rfl⟩, (stopless_append.1 hs).2, hx⟩
  · cases bs with
    | nil => exact .inr ⟨[], by simp, ⟨rest, hrest.symm⟩, stopless_nil, hx⟩
    | cons y bs =>
      obtain ⟨rfl, -⟩ := List.cons.inj hrest
      exact .inl ⟨⟨bs, rfl⟩, hs, hx⟩

theorem Cut.of_cons (h : Cut (y :: p) done x) :
    (done = [] ∧ x = y) ∨ ∃ done', done = y :: done' ∧ Cut p done' x := by
  obtain ⟨⟨rest, heq⟩, hs, hx⟩ := h
  cases done with
  | nil =>
    obtain ⟨rfl, -⟩ := List.cons.inj heq
    exact .inl ⟨rfl, rfl⟩
  | cons z done =>
    obtain ⟨rfl, rfl⟩ := List.cons.inj heq
    exact .inr ⟨done, rfl, ⟨rest, rfl⟩, (stopless_cons.1 hs).2, hx⟩

theorem Cut.of_singleton (h : Cut [y] done x) : done = [] ∧ x = y := by
  obtain hfirst | ⟨done', -, hrest⟩ := h.of_cons
  · exact hfirst
  · exact absurd hrest.mem List.not_mem_nil

theorem Cut.of_flatten {ps : List (Plan ε)} (h : Cut ps.flatten done x) :
    ∃ first p rest done', ps = first ++ p :: rest ∧ done = first.flatten ++ done' ∧ Cut p done' x := by
  induction ps generalizing done with
  | nil => exact absurd h.mem List.not_mem_nil
  | cons p ps ih =>
    rw [List.flatten_cons] at h
    obtain hp | ⟨done', rfl, hps⟩ := h.of_append
    · exact ⟨[], p, ps, done, rfl, rfl, hp⟩
    · obtain ⟨first, p', rest, done'', rfl, rfl, hp'⟩ := ih hps
      exact ⟨p :: first, p', rest, done'', rfl, by simp, hp'⟩

theorem Cut.of_flatMap {f : κ → Plan ε} {ks : List κ} (h : Cut (ks.flatMap f) done x) :
    ∃ first k rest done', ks = first ++ k :: rest ∧ done = first.flatMap f ++ done' ∧
      Cut (f k) done' x := by
  rw [List.flatMap_def] at h
  obtain ⟨ps, p, qs, done', hsplit, rfl, hp⟩ := h.of_flatten
  obtain ⟨first, ks', rfl, rfl, hrest⟩ := List.map_eq_append_iff.1 hsplit
  obtain ⟨k, rest, rfl, rfl, rfl⟩ := List.map_eq_cons_iff.1 hrest
  exact ⟨first, k, rest, done', rfl, by rw [List.flatMap_def], hp⟩

theorem Cut.of_mapIdx {f : Nat → κ → Plan ε} {ks : List κ} (h : Cut (ks.mapIdx f).flatten done x) :
    ∃ first k rest done', ks = first ++ k :: rest ∧ done = (first.mapIdx f).flatten ++ done' ∧
      Cut (f first.length k) done' x := by
  obtain ⟨ps, p, qs, done', hsplit, rfl, hp⟩ := h.of_flatten
  obtain ⟨first, ks', rfl, rfl, hrest⟩ := List.mapIdx_eq_append_iff.1 hsplit
  obtain ⟨k, rest, rfl, rfl, rfl⟩ := List.mapIdx_eq_cons_iff.1 hrest
  rw [Nat.zero_add] at hp
  exact ⟨first, k, rest, done', rfl, rfl, hp⟩

/-- A reference that may end its plan is one that stops at once. -/
theorem Cut.of_refer {names : List String} {name : String} {e : Error}
    {c : Command String String Unit ε} (h : Cut (refer names name e c) done x) : done = [] := by
  unfold refer at h
  by_cases hn : name ∈ names
  · rw [if_pos hn] at h
    exact h.of_singleton.1
  · rw [if_neg hn] at h
    exact h.of_singleton.1

theorem Cut.of_ofResourceAt {position : Nat} {r : Resource} {n : UInt32}
    (h : Cut (ofResourceAt frame position r n) done x) : done = [] := by
  have hrequest {y : PlanStep ε} {severity : Severity} {message : String}
      (h : Cut [y, .note severity message] done x) : done = [] := by
    obtain ⟨hdone, -⟩ | ⟨done', -, hnote⟩ := h.of_cons
    · exact hdone
    · obtain ⟨-, rfl⟩ := hnote.of_singleton
      exact absurd hnote.mayEnd Bool.noConfusion
  unfold ofResourceAt at h
  cases hb : r.body with
  | buffer b =>
    rw [hb] at h
    exact hrequest h
  | image i =>
    rw [hb] at h
    dsimp only at h
    split at h
    · exact h.of_singleton.1
    · exact hrequest h

theorem Cut.of_ofResource {position : Nat} {r : Resource}
    (h : Cut (ofResource frame position r) done x) (a : Account ε) :
    ∃ ns, ns <+: frame.iterations r.condition r.repetition ∧
      a.after done = a.addResources (r.imagesAt frame ns) (r.buffersAt ns) := by
  unfold ofResource at h
  unfold Frame.iterations
  by_cases ha : frame.admits r.condition = true
  · rw [if_pos ha] at h ⊢
    obtain ⟨ns, n, rest, done', hns, rfl, hn⟩ := h.of_flatMap
    obtain rfl := hn.of_ofResourceAt
    have hs := h.stopless
    rw [List.append_nil] at hs ⊢
    exact ⟨ns, ⟨n :: rest, hns.symm⟩, after_instances a position r hs⟩
  · rw [if_neg ha] at h
    obtain ⟨-, rfl⟩ := h.of_singleton
    exact absurd h.mayEnd Bool.noConfusion

theorem imagesAt_mono {ms ns : List UInt32} (h : ms <+: ns) (r : Resource) :
    r.imagesAt frame ms <+: r.imagesAt frame ns := by
  obtain ⟨rest, rfl⟩ := h
  rw [r.imagesAt_append]
  exact List.prefix_append _ _

theorem buffersAt_mono {ms ns : List UInt32} (h : ms <+: ns) (r : Resource) :
    r.buffersAt ms <+: r.buffersAt ns := by
  obtain ⟨rest, rfl⟩ := h
  rw [r.buffersAt_append]
  exact List.prefix_append _ _

/-- Before a cut among the resources, the first ones are requested. -/
theorem Cut.of_resources {rs : List Resource} (h : Cut (rs.mapIdx (ofResource frame)).flatten done x)
    (a : Account ε) :
    ∃ images buffers, a.after done = a.addResources images buffers ∧
      images <+: rs.flatMap (fun r => r.imagesAt frame (frame.iterations r.condition r.repetition)) ∧
      buffers <+: rs.flatMap (fun r => r.buffersAt (frame.iterations r.condition r.repetition)) := by
  obtain ⟨first, r, rest, done', rfl, rfl, hr⟩ := h.of_mapIdx
  have hs := (stopless_append.1 h.stopless).1
  obtain ⟨ns, hns, hafter⟩ := hr.of_ofResource (a.after (first.mapIdx (ofResource frame)).flatten)
  rw [Account.after_append, hafter, after_resources a first hs]
  have himages := prefix_flatMap
    (f := fun r : Resource => r.imagesAt frame (frame.iterations r.condition r.repetition))
    (imagesAt_mono hns r) first rest
  have hbuffers := prefix_flatMap
    (f := fun r : Resource => r.buffersAt (frame.iterations r.condition r.repetition))
    (buffersAt_mono hns r) first rest
  refine ⟨_, _, ?_, himages, hbuffers⟩
  simp [Account.addResources]

theorem Cut.of_ofUse {mode : UseMode} {path : Path} {n : UInt32} {u : Use}
    (h : Cut (ofUse frame scope mode path n u) done x) (a : PassAccount ε) :
    ∃ us, us <+: u.accounts frame n ∧ done.foldl PassAccount.apply a = a.use us mode := by
  have hat {m : UInt32} {done : Plan ε} (h : Cut (ofUseAt scope mode path u m) done x) :
      done = [] := by
    unfold ofUseAt at h
    cases hu : u.access with
    | image access =>
      rw [hu] at h
      exact h.of_refer
    | buffer access =>
      rw [hu] at h
      exact h.of_refer
  unfold ofUse at h
  unfold Use.accounts Frame.useIterations
  cases hu : u.repetition with
  | once =>
    rw [hu] at h
    obtain rfl := hat h
    exact ⟨[], List.nil_prefix, by cases mode <;> simp [PassAccount.use]⟩
  | counted source =>
    rw [hu] at h
    obtain ⟨ms, m, rest, done', hms, rfl, hm⟩ := h.of_flatMap
    obtain rfl := hat hm
    have hs := h.stopless
    rw [List.append_nil] at hs ⊢
    refine ⟨ms.map u.account, ?_, foldl_useInstances a mode path u hs⟩
    dsimp only
    rw [hms, List.map_append]
    exact List.prefix_append _ _

/-- Before a cut among the uses, the first ones are told. -/
theorem Cut.of_ofUses {mode : UseMode} {path : Path} {n : UInt32} {uses : List Use}
    (h : Cut (ofUses frame scope mode path n uses) done x) (a : PassAccount ε) :
    ∃ us, us <+: uses.flatMap (·.accounts frame n) ∧
      done.foldl PassAccount.apply a = a.use us mode := by
  obtain ⟨first, u, rest, done', rfl, rfl, hu⟩ := h.of_mapIdx
  have hs : Stopless (ofUses frame scope mode path n first) := (stopless_append.1 h.stopless).1
  have hfirst := foldl_ofUses a mode path n first hs
  obtain ⟨us, hus, hfold⟩ := hu.of_ofUse (a.use (first.flatMap (·.accounts frame n)) mode)
  refine ⟨_, prefix_flatMap (f := fun u : Use => u.accounts frame n) hus first rest, ?_⟩
  rw [List.foldl_append]
  refine (congrArg (List.foldl PassAccount.apply · done') hfirst).trans (hfold.trans ?_)
  cases mode <;> simp [PassAccount.use]

/-- Before a cut among the attachments, the first colors are told. -/
theorem Cut.of_ofAttachments {path : Path} {as : Attachments} {n : UInt32}
    (h : Cut (ofAttachments scope path as n) done x) (a : PassAccount ε) :
    ∃ cs, cs <+: as.colors ∧ done.foldl PassAccount.apply a =
      { a with colors := a.colors ++ cs.map fun c => c.account .color false n } := by
  have hcolors {cs : List (Attachment Color)} {e : Nat → Attachment Color → Error}
      (hs : Stopless (cs.mapIdx fun i c => refer scope.images (Template.expand c.image n) (e i c)
        (.addColor () (Template.expand c.image n) (c.describe .color n)) : List (Plan ε)).flatten) :
      (cs.mapIdx fun i c => refer scope.images (Template.expand c.image n) (e i c)
        (.addColor () (Template.expand c.image n) (c.describe .color n)) : List (Plan ε)).flatten.foldl
          PassAccount.apply a =
      { a with colors := a.colors ++ cs.map fun c => c.account .color false n } := by
    rw [referAll_of_mem ((stopless_referAll cs).1 hs), foldl_addColors]
  unfold ofAttachments at h
  dsimp only at h
  obtain hc | ⟨done', rfl, hd⟩ := h.of_append
  · obtain ⟨first, c, rest, done', hsplit, rfl, hcut⟩ := hc.of_mapIdx
    obtain rfl := hcut.of_refer
    have hs := hc.stopless
    rw [List.append_nil] at hs ⊢
    exact ⟨first, ⟨c :: rest, hsplit.symm⟩, hcolors hs⟩
  · obtain ⟨first, d, rest, done'', hsplit, rfl, hcut⟩ := hd.of_flatMap
    obtain rfl := hcut.of_refer
    have hfirst : first = [] := by
      cases hdepth : as.depth <;> rw [hdepth] at hsplit
      · exact absurd hsplit (by simp)
      · cases first with
        | nil => rfl
        | cons => exact absurd hsplit (by simp)
    subst hfirst
    have hs := h.stopless
    rw [List.flatMap_nil, List.append_nil, List.append_nil] at hs ⊢
    exact ⟨as.colors, List.prefix_refl _, hcolors hs⟩

/-- Where nothing stops, every instance of a pass has an executor. -/
theorem isSome_executor_of_stopless {executors : String → Option ε} {position : Nat} {d : Pass}
    {ns : List UInt32} (hs : Stopless (ns.flatMap (ofPassAt frame executors scope position d))) :
    ∀ b ∈ ns.map (d.account frame executors), b.executor.isSome = true := by
  intro b hb
  obtain ⟨n, hn, rfl⟩ := List.mem_map.1 hb
  exact ((stopless_ofPassAt executors position d n).1 (stopless_flatMap.1 hs n hn)).executor

theorem isSome_executors_of_stopless {executors : String → Option ε} {ds : List Pass}
    (hs : Stopless (ds.mapIdx (ofPass frame executors scope)).flatten) :
    ∀ b ∈ ds.flatMap (fun d =>
      (frame.iterations d.condition d.repetition).map (d.account frame executors)),
      b.executor.isSome = true := by
  intro b hb
  obtain ⟨d, hd, hb⟩ := List.mem_flatMap.1 hb
  obtain ⟨n, hn, rfl⟩ := List.mem_map.1 hb
  exact ((stopless_mapIdx (stopless_ofPass executors) ds).1 hs d hd n hn).executor

theorem mayEnd_heading (d : Pass) (executor : ε) :
    ∀ y ∈ heading d executor, y.mayEnd = false := by
  unfold heading
  cases d.work.domain? <;> simp [PlanStep.mayEnd]

/-- A pass with its heading, the first of its colors, its depth attachment or none, and the first of
its uses is a part of the complete one. -/
theorem partOf_account {executors : String → Option ε} {d : Pass} {executor : ε} {n : UInt32}
    (he : executors d.execute = some executor) {cs : List (Attachment Color)}
    {depth : Option AttachmentAccount} {rs ws : List UseAccount}
    (hcs : cs <+: d.attachments.colors)
    (hdepth : depth = none ∨ depth = (d.account frame executors n).depth)
    (hrs : rs <+: d.reads.flatMap (·.accounts frame n))
    (hws : ws <+: d.writes.flatMap (·.accounts frame n)) :
    PassAccount.PartOf
      { headed d executor n with
        colors := cs.map fun c => c.account .color false n
        depth := depth
        reads := rs
        writes := ws } (d.account frame executors n) where
  name := rfl
  type := rfl
  flags := rfl
  domain := rfl
  executor := he.symm
  colors := hcs.map _
  depth := hdepth
  reads := hrs
  writes := hws

/-- Before a cut within a pass that was just requested, it is told its heading and the first of what
comes after. -/
theorem Cut.of_inPass {executors : String → Option ε} {position : Nat} {d : Pass} {executor : ε}
    {n : UInt32} (he : executors d.execute = some executor)
    (h : Cut (inPass frame scope position d executor n) done x) :
    (done.foldl PassAccount.apply
      { name := (d.request n).name, type := (d.request n).type }).PartOf
        (d.account frame executors n) := by
  rw [inPass_eq] at h
  obtain h | ⟨done', -, hlast⟩ := h.of_append
  · obtain h | ⟨done', rfl, hwrites⟩ := h.of_append
    · obtain h | ⟨done', rfl, hreads⟩ := h.of_append
      · obtain h | ⟨done', rfl, hattachments⟩ := h.of_append
        · have hx := mayEnd_heading d executor x h.mem
          exact absurd (hx.symm.trans h.mayEnd) Bool.noConfusion
        · obtain ⟨cs, hcs, hfold⟩ := hattachments.of_ofAttachments (headed d executor n)
          rw [List.foldl_append, foldl_heading, hfold]
          exact partOf_account he hcs (.inl rfl) List.nil_prefix List.nil_prefix
      · have hs := h.stopless
        rw [stopless_append, stopless_append] at hs
        obtain ⟨us, hus, hfold⟩ := hreads.of_ofUses _
        rw [List.foldl_append, List.foldl_append, foldl_heading,
          foldl_ofAttachments (headed d executor n) rfl _ _ _ hs.1.2, hfold]
        exact partOf_account he (List.prefix_refl _) (.inr rfl) hus List.nil_prefix
    · have hs := h.stopless
      rw [stopless_append, stopless_append, stopless_append] at hs
      obtain ⟨us, hus, hfold⟩ := hwrites.of_ofUses _
      rw [List.foldl_append, List.foldl_append, List.foldl_append, foldl_heading,
        foldl_ofAttachments (headed d executor n) rfl _ _ _ hs.1.1.2,
        foldl_ofUses _ _ _ _ _ hs.1.2, hfold]
      exact partOf_account he (List.prefix_refl _) (.inr rfl) (List.prefix_refl _) hus
  · obtain ⟨-, rfl⟩ := hlast.of_singleton
    exact absurd hlast.mayEnd Bool.noConfusion

theorem Cut.of_ofPassAt {executors : String → Option ε} {position : Nat} {d : Pass} {n : UInt32}
    (h : Cut (ofPassAt frame executors scope position d n) done x) (a : Account ε) :
    ∃ ps, a.after done = a.addPasses ps ∧ (∀ b ∈ ps, b.executor.isSome = true) ∧
      Begins PassAccount.PartOf ps [d.account frame executors n] := by
  have hnone : a.after [] = a.addPasses [] := a.addPasses_nil.symm
  cases he : executors d.execute with
  | none =>
    rw [ofPassAt_of_none he] at h
    obtain ⟨rfl, -⟩ := h.of_singleton
    exact ⟨[], hnone, List.forall_mem_nil _, begins_nil _ _⟩
  | some executor =>
    rw [ofPassAt_of_some he] at h
    obtain ⟨rfl, -⟩ | ⟨done', rfl, hin⟩ := h.of_cons
    · exact ⟨[], hnone, List.forall_mem_nil _, begins_nil _ _⟩
    · have hmem : ∀ s ∈ done', s.isInPass = true := by
        obtain ⟨rest, hsplit⟩ := hin.split
        have hall : ∀ s ∈ inPass frame scope position d executor n, s.isInPass = true :=
          isInPass_inPass position d executor n
        rw [hsplit, List.forall_mem_append] at hall
        exact hall.1
      have hpart := hin.of_inPass he
      refine ⟨[_], after_addPasses a hmem _, List.forall_mem_singleton.2 ?_,
        .inr ⟨[], _, _, [], rfl, rfl, hpart⟩⟩
      rw [hpart.executor]
      exact Option.isSome_iff_exists.2 ⟨executor, he⟩

theorem Cut.of_ofPass {executors : String → Option ε} {position : Nat} {d : Pass}
    (h : Cut (ofPass frame executors scope position d) done x) (a : Account ε) :
    ∃ ps, a.after done = a.addPasses ps ∧ (∀ b ∈ ps, b.executor.isSome = true) ∧
      Begins PassAccount.PartOf ps
        ((frame.iterations d.condition d.repetition).map (d.account frame executors)) := by
  unfold ofPass at h
  unfold Frame.iterations
  by_cases ha : frame.admits d.condition = true
  · rw [if_pos ha] at h ⊢
    obtain ⟨ns, n, rest, done', hns, rfl, hn⟩ := h.of_flatMap
    have hs := (stopless_append.1 h.stopless).1
    obtain ⟨ps, hafter, hexecutors, hps⟩ :=
      hn.of_ofPassAt (a.addPasses (ns.map (d.account frame executors)))
    refine ⟨ns.map (d.account frame executors) ++ ps, ?_,
      List.forall_mem_append.2 ⟨isSome_executor_of_stopless hs, hexecutors⟩, ?_⟩
    · rw [Account.after_append, after_passInstances a executors position d hs, hafter]
      simp [Account.addPasses]
    · rw [hns, List.map_append, List.map_cons]
      exact hps.append (ns.map (d.account frame executors)) (rest.map (d.account frame executors))
  · rw [if_neg ha] at h
    obtain ⟨-, rfl⟩ := h.of_singleton
    exact absurd h.mayEnd Bool.noConfusion

/-- Before a cut among the passes, the first ones are complete, and one more may have its heading. -/
theorem Cut.of_passes {executors : String → Option ε} {ds : List Pass}
    (h : Cut (ds.mapIdx (ofPass frame executors scope)).flatten done x) (a : Account ε) :
    ∃ ps, a.after done = a.addPasses ps ∧ (∀ b ∈ ps, b.executor.isSome = true) ∧
      Begins PassAccount.PartOf ps (ds.flatMap fun d =>
        (frame.iterations d.condition d.repetition).map (d.account frame executors)) := by
  obtain ⟨first, d, rest, done', rfl, rfl, hd⟩ := h.of_mapIdx
  have hs := (stopless_append.1 h.stopless).1
  obtain ⟨ps, hafter, hexecutors, hps⟩ := hd.of_ofPass
    (a.after (first.mapIdx (ofPass frame executors scope)).flatten)
  have hbegins := Begins.flatMap
    (f := fun d : Pass =>
      (frame.iterations d.condition d.repetition).map (d.account frame executors)) hps first rest
  refine ⟨_, ?_, List.forall_mem_append.2 ⟨isSome_executors_of_stopless hs, hexecutors⟩, hbegins⟩
  rw [Account.after_append, hafter, after_passes a executors first hs]
  simp [Account.addPasses]

theorem isOfOutput_refer {names : List String} {name : String} {e : Error}
    {c : Command String String Unit ε} (hc : c.isOutput = true) :
    ∀ y ∈ refer names name e c, y.isOfOutput = true := by
  unfold refer
  by_cases h : name ∈ names <;> simp [h, PlanStep.isOfOutput, hc]

theorem isOfOutput_ofOutputs (o : Outputs) :
    ∀ y ∈ (ofOutputs scope o : Plan ε), y.isOfOutput = true := by
  unfold ofOutputs
  dsimp only
  rw [List.forall_mem_append, List.forall_mem_append]
  refine ⟨⟨?_, forall_mem_mapIdx (fun i name => isOfOutput_refer rfl) _⟩,
    forall_mem_mapIdx (fun i name => isOfOutput_refer rfl) _⟩
  intro y hy
  obtain ⟨name, -, hname⟩ := List.mem_flatMap.1 hy
  exact isOfOutput_refer rfl y hname

/-- Steps about outputs leave the rest of an account as it is. -/
theorem after_of_isOfOutput (a : Account ε) (hp : ∀ y ∈ p, y.isOfOutput = true) :
    (a.after p).images = a.images ∧ (a.after p).buffers = a.buffers ∧
      (a.after p).passes = a.passes := by
  induction p generalizing a with
  | nil => exact ⟨rfl, rfl, rfl⟩
  | cons y p ih =>
    obtain ⟨hy, hrest⟩ := List.forall_mem_cons.1 hp
    obtain ⟨himages, hbuffers, hpasses⟩ := ih (a.apply y) hrest
    rw [Account.after_cons, himages, hbuffers, hpasses]
    cases y with
    | command c =>
      cases c with
      | setPresent | exportImage | exportBuffer => exact ⟨rfl, rfl, rfl⟩
      | _ => exact absurd hy Bool.noConfusion
    | note | stop => exact ⟨rfl, rfl, rfl⟩
    | _ => exact absurd hy Bool.noConfusion

end Plan

end FrameGraph
