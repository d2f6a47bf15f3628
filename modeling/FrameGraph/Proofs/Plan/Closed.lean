import FrameGraph.Proofs.Plan.Content

namespace FrameGraph

namespace Plan

open Build Document

variable {ε α κ : Type} {frame : Frame} {scope : Scope} {P : Account ε → Prop}

/-- The account holds all names in scope. -/
structure Supports (scope : Scope) (a : Account ε) : Prop where
  images : scope.images ⊆ a.imageNames
  buffers : scope.buffers ⊆ a.bufferNames

/-- The same, within a pass. -/
structure SupportsPass (scope : Scope) (a : Account ε) : Prop extends Supports scope a where
  passes : a.passes ≠ []

theorem Supports.apply {a : Account ε} (h : Supports scope a) (s : PlanStep ε) :
    Supports scope (a.apply s) := by
  cases s with
  | image q =>
    refine ⟨fun name hn => ?_, h.buffers⟩
    simpa [Account.apply, Account.imageNames] using Or.inl (List.mem_map.1 (h.images hn))
  | buffer q =>
    refine ⟨h.images, fun name hn => ?_⟩
    simpa [Account.apply, Account.bufferNames] using Or.inl (List.mem_map.1 (h.buffers hn))
  | command c => cases c <;> exact ⟨h.images, h.buffers⟩
  | _ => exact ⟨h.images, h.buffers⟩

theorem SupportsPass.apply {a : Account ε} (h : SupportsPass scope a) (s : PlanStep ε) :
    SupportsPass scope (a.apply s) := by
  refine ⟨h.toSupports.apply s, ?_⟩
  have hp := List.length_pos_iff.2 h.passes
  refine List.length_pos_iff.1 ?_
  cases s with
  | command c => cases c <;> simpa [Account.apply, Account.tell] using hp
  | pass q => simp [Account.apply]
  | _ => simpa [Account.apply] using hp

/-- A property of accounts that no step takes away holds after a whole plan. -/
theorem after_of_apply (hP : ∀ a s, P a → P (a.apply s)) {a : Account ε} (ha : P a) (p : Plan ε) :
    P (a.after p) := by
  induction p generalizing a with
  | nil => exact ha
  | cons s p ih => exact ih (hP a s ha)

theorem closed_append_of (hP : ∀ a s, P a → P (a.apply s)) {p q : Plan ε}
    (hp : ∀ a, P a → Closed a p) (hq : ∀ a, P a → Closed a q) (a : Account ε) (ha : P a) :
    Closed a (p ++ q) :=
  closed_append.2 ⟨hp a ha, fun _ => hq _ (after_of_apply hP ha p)⟩

theorem closed_flatten_of (hP : ∀ a s, P a → P (a.apply s)) {ps : List (Plan ε)}
    (h : ∀ p ∈ ps, ∀ a, P a → Closed a p) (a : Account ε) (ha : P a) : Closed a ps.flatten := by
  induction ps generalizing a with
  | nil => trivial
  | cons p ps ih =>
    rw [List.flatten_cons]
    exact closed_append_of hP (h p (List.mem_cons_self ..))
      (fun b hb => ih (fun q hq => h q (List.mem_cons_of_mem _ hq)) b hb) a ha

theorem closed_mapIdx_of (hP : ∀ a s, P a → P (a.apply s)) {f : Nat → α → Plan ε}
    (h : ∀ i x a, P a → Closed a (f i x)) (xs : List α) (a : Account ε) (ha : P a) :
    Closed a (xs.mapIdx f).flatten := by
  refine closed_flatten_of hP ?_ a ha
  intro p hp
  obtain ⟨i, hi, rfl⟩ := List.mem_mapIdx.1 hp
  exact h i _

theorem closed_flatMap_of (hP : ∀ a s, P a → P (a.apply s)) {f : κ → Plan ε}
    (h : ∀ k a, P a → Closed a (f k)) (ks : List κ) (a : Account ε) (ha : P a) :
    Closed a (ks.flatMap f) := by
  rw [List.flatMap_def]
  refine closed_flatten_of hP ?_ a ha
  intro p hp
  obtain ⟨k, -, rfl⟩ := List.mem_map.1 hp
  exact h k

theorem closed_ofUses (mode : UseMode) (p : Path) (n : UInt32) (uses : List Use) (a : Account ε)
    (ha : SupportsPass scope a) : Closed a (ofUses frame scope mode p n uses) := by
  refine closed_mapIdx_of (fun _ s h => h.apply s) (fun i u b hb => ?_) uses a ha
  have hat (m : UInt32) (b : Account ε) (hb : SupportsPass scope b) :
      Closed b (ofUseAt scope mode (usePath p mode i) u m) := by
    unfold ofUseAt
    cases u.access with
    | image access => exact closed_refer fun hn => ⟨hb.passes, hb.images hn⟩
    | buffer access => exact closed_refer fun hn => ⟨hb.passes, hb.buffers hn⟩
  unfold ofUse
  cases u.repetition with
  | once => exact hat n b hb
  | counted source => exact closed_flatMap_of (fun _ s h => h.apply s) hat _ b hb

theorem closed_ofAttachments (p : Path) (as : Attachments) (n : UInt32) (a : Account ε)
    (ha : SupportsPass scope a) : Closed a (ofAttachments scope p as n) := by
  refine closed_append_of (fun _ s h => h.apply s) ?_ ?_ a ha
  · refine closed_mapIdx_of (fun _ s h => h.apply s) (fun i c b hb => ?_) as.colors
    exact closed_refer fun hn => ⟨hb.passes, hb.images hn⟩
  · refine closed_flatMap_of (fun _ s h => h.apply s) (fun d b hb => ?_) as.depth.toList
    exact closed_refer fun hn => ⟨hb.passes, hb.images hn⟩

theorem closed_inPass (position : Nat) (d : Pass) (executor : ε) (n : UInt32) (a : Account ε)
    (ha : SupportsPass scope a) : Closed a (inPass frame scope position d executor n) := by
  have hstable : ∀ (a : Account ε) s, SupportsPass scope a → SupportsPass scope (a.apply s) :=
    fun _ s h => h.apply s
  unfold inPass
  refine closed_append_of hstable (closed_append_of hstable (closed_append_of hstable
    (closed_append_of hstable ?_ (closed_ofAttachments _ _ n)) (closed_ofUses _ _ n _))
    (closed_ofUses _ _ n _)) ?_ a ha
  · intro b hb
    have hb' := hb.apply (.command (.setFlags () d.flags))
    cases d.work.domain? with
    | none => exact ⟨hb.passes, hb'.passes, trivial⟩
    | some domain =>
      exact ⟨hb.passes, hb'.passes, (hb'.apply (.command (.setDomain () domain))).passes, trivial⟩
  · exact fun b _ => trivial

theorem closed_ofPass (executors : String → Option ε) (position : Nat) (d : Pass) (a : Account ε)
    (ha : Supports scope a) : Closed a (ofPass frame executors scope position d) := by
  unfold ofPass
  by_cases hc : frame.admits d.condition = true
  · rw [if_pos hc]
    refine closed_flatMap_of (fun _ s h => h.apply s) (fun n b hb => ?_) _ a ha
    cases he : executors d.execute with
    | none =>
      rw [ofPassAt_of_none he]
      trivial
    | some executor =>
      rw [ofPassAt_of_some he]
      exact closed_inPass position d executor n _ ⟨hb.apply _, by simp [Account.apply]⟩
  · rw [if_neg hc]
    trivial

theorem closed_ofOutputs (o : Outputs) (a : Account ε) (ha : Supports scope a) :
    Closed a (ofOutputs scope o) := by
  have hstable : ∀ (a : Account ε) s, Supports scope a → Supports scope (a.apply s) :=
    fun _ s h => h.apply s
  refine closed_append_of hstable (closed_append_of hstable ?_ ?_) ?_ a ha
  · exact closed_flatMap_of hstable (fun name b hb => closed_refer fun hn => hb.images hn) _
  · exact closed_mapIdx_of hstable (fun i name b hb => closed_refer fun hn => hb.images hn) _
  · exact closed_mapIdx_of hstable (fun i name b hb => closed_refer fun hn => hb.buffers hn) _

end Plan

open Plan in
theorem Graph.closed_plan {ε : Type} (g : Graph) (frame : Frame) (executors : String → Option ε) :
    Closed {} (g.plan frame executors) := by
  have hstable : ∀ (a : Account ε) s, Supports (g.scope frame) a →
      Supports (g.scope frame) (a.apply s) := fun _ s h => h.apply s
  rw [plan_eq, closed_append]
  refine ⟨closed_of_isOfResource (forall_mem_mapIdx isOfResource_ofResource _) _, fun hs => ?_⟩
  rw [after_resources _ _ hs]
  refine closed_append_of hstable (closed_mapIdx_of hstable (closed_ofPass executors) g.passes)
    (closed_append_of hstable (closed_ofOutputs _) ?_) _
    ⟨List.Subset.refl _, List.Subset.refl _⟩
  exact fun b _ => trivial

end FrameGraph
