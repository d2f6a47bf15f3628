import FrameGraph.Executors
import FrameGraph.Proofs.Plan.Interpretation
import FrameGraph.Proofs.Recording.Build
import Mathlib.Data.List.Induction

namespace FrameGraph

variable {ε : Type}

namespace Executors

/-- A change that registered executors are asked for; it may be refused. -/
inductive Call (ε : Type) where
  | register (name : String) (executor : ε)
  | unregister (name : String)

def Call.perform : Call ε → Action (Executors ε) Unit
  | .register name executor => Executors.register name executor
  | .unregister name => (fun _ => ()) <$> Executors.unregister name

/-- The executors after calls. -/
def after (x : Executors ε) (calls : List (Call ε)) : Executors ε :=
  calls.foldl (fun x c => (c.perform x).state) x

/-- The executor may be registered under the name once the calls were made on no executors. -/
def Accepted (calls : List (Call ε)) (name : String) (executor : ε) : Prop :=
  ((Call.register name executor).perform (after {} calls)).result = .ok ()

/-- The last registration of the name that was accepted is that of the executor, and the name was not
taken out since. -/
def Current (calls : List (Call ε)) (name : String) (executor : ε) : Prop :=
  ∃ before since, calls = before ++ .register name executor :: since ∧
    Accepted before name executor ∧
    (∀ middle e rest, since = middle ++ .register name e :: rest →
      ¬Accepted (before ++ .register name executor :: middle) name e) ∧
    .unregister name ∉ since

variable {x : Executors ε} {name : String} {calls : List (Call ε)} {e : ε}

theorem find?_empty (name : String) : ({} : Executors ε).find? name = none := by
  simp [find?]

/-- A name that is taken is refused, and nothing changes. -/
theorem register_of_taken (h : (x.find? name).isSome = true) (e : ε) :
    ∃ log, register name e x =
      ⟨x, log, .error ⟨.semantic, name, s!"executor '{name}' is already registered"⟩⟩ := by
  have hc : x.contains name = true := (x.contains_eq_isSome name).trans h
  unfold register
  rw [Action.bind_of_ok (Action.get_apply x), if_pos hc]
  exact ⟨_, rfl⟩

theorem register_of_free (h : x.find? name = none) (e : ε) :
    (register name e x).result = .ok () := by
  have hc : ¬x.contains name = true := by
    rw [x.contains_eq_isSome, h]
    exact Bool.false_ne_true
  unfold register
  rw [Action.bind_of_ok (Action.get_apply x), if_neg hc]
  rfl

theorem accepted_iff : Accepted calls name e ↔ (after {} calls).find? name = none := by
  unfold Accepted Call.perform
  constructor
  · intro h
    cases hx : (after {} calls).find? name with
    | none => rfl
    | some e' =>
      obtain ⟨log, hregister⟩ := register_of_taken (by rw [hx]; rfl) e
      dsimp only at h
      rw [hregister] at h
      exact absurd h nofun
  · intro h
    exact register_of_free h e

theorem after_concat (x : Executors ε) (calls : List (Call ε)) (c : Call ε) :
    after x (calls ++ [c]) = (c.perform (after x calls)).state :=
  List.foldl_concat ..

/-- What is found after a registration: its executor if the name is free, and what was there if not. -/
theorem find?_register_state (x : Executors ε) (m name : String) (e : ε) :
    ((Call.register m e).perform x).state.find? name =
      if m = name ∧ x.find? name = none then some e else x.find? name := by
  show (register m e x).state.find? name = _
  rw [find?_register, contains_eq_isSome]
  by_cases hm : m = name
  · subst hm
    cases x.find? m <;> simp
  · simp [hm]

theorem find?_unregister_state (x : Executors ε) (m name : String) :
    ((Call.unregister m).perform x).state.find? name =
      if m = name then none else x.find? name := by
  show (((fun _ => ()) <$> unregister m : Action (Executors ε) Unit) x).state.find? name = _
  rw [Action.map_apply]
  exact find?_unregister x m name

/-- The executor was registered by the last call, or before it and the last call leaves it. -/
theorem current_concat {c : Call ε} :
    Current (calls ++ [c]) name e ↔ (Accepted calls name e ∧ c = .register name e) ∨
      (Current calls name e ∧ c ≠ .unregister name ∧
        ∀ e', c = .register name e' → ¬Accepted calls name e') := by
  constructor
  -- The last call is the registration itself, or one of those after it.
  · rintro ⟨before, since, heq, haccepted, hlast, hkept⟩
    obtain rfl | ⟨first, d, rfl⟩ := List.eq_nil_or_concat' since
    · obtain ⟨rfl, hc⟩ := List.append_inj' heq rfl
      exact .inl ⟨haccepted, List.singleton_inj.1 hc⟩
    · rw [← List.cons_append, ← List.append_assoc] at heq
      obtain ⟨rfl, hc⟩ := List.append_inj' heq rfl
      obtain rfl := List.singleton_inj.1 hc
      refine .inr ⟨⟨before, first, rfl, haccepted, ?_, ?_⟩, ?_, ?_⟩
      · rintro middle e' rest rfl
        exact hlast middle e' (rest ++ [c]) (by simp)
      · exact fun h => hkept (List.mem_append_left _ h)
      · rintro rfl
        exact hkept (List.mem_append_right _ (List.mem_singleton_self _))
      · rintro e' rfl
        exact hlast first e' [] rfl
  · rintro (⟨haccepted, rfl⟩ | ⟨⟨before, since, rfl, haccepted, hlast, hkept⟩, hc, hnot⟩)
    · exact ⟨calls, [], rfl, haccepted, fun middle e' rest h => absurd h (by simp), List.not_mem_nil⟩
    · refine ⟨before, since ++ [c], by simp, haccepted, ?_, ?_⟩
      · intro middle e' rest hsplit
        obtain rfl | ⟨rest, d, rfl⟩ := List.eq_nil_or_concat' rest
        · obtain ⟨rfl, hd⟩ := List.append_inj' hsplit rfl
          exact hnot e' (List.singleton_inj.1 hd)
        · rw [← List.cons_append, ← List.append_assoc] at hsplit
          obtain ⟨rfl, -⟩ := List.append_inj' hsplit rfl
          exact hlast middle e' rest rfl
      · rw [List.mem_append, List.mem_singleton, not_or]
        exact ⟨hkept, hc.symm⟩

/-- What is found under a name is what was registered there last. -/
theorem find?_after_iff (calls : List (Call ε)) (name : String) (e : ε) :
    (after {} calls).find? name = some e ↔ Current calls name e := by
  induction calls using List.reverseRecOn generalizing e with
  | nil =>
    constructor
    · intro h
      exact absurd ((find?_empty name).symm.trans h) nofun
    · rintro ⟨before, since, heq, -⟩
      exact absurd heq (by simp)
  | append_singleton calls c ih =>
    rw [after_concat, current_concat, accepted_iff, ← ih]
    cases c with
    | register m e' =>
      rw [find?_register_state]
      by_cases hm : m = name
      · subst hm
        cases hx : (after {} calls).find? m with
        | none => simp [accepted_iff, hx]
        | some e'' => simp [accepted_iff, hx]
      · simp [hm]
    | unregister m =>
      rw [find?_unregister_state]
      by_cases hm : m = name <;> simp [hm]

/-- A registration is accepted exactly if its name has no current executor. -/
theorem accepted_iff_forall_not_current {e' : ε} :
    Accepted calls name e' ↔ ∀ e, ¬Current calls name e := by
  rw [accepted_iff, Option.eq_none_iff_forall_ne_some]
  exact forall_congr' fun e => not_congr (find?_after_iff calls name e)

/-- A registration that is refused changes nothing. -/
theorem after_concat_of_not_accepted (h : ¬Accepted calls name e) :
    after {} (calls ++ [.register name e]) = after {} calls := by
  obtain ⟨log, hregister⟩ := register_of_taken (Option.isSome_iff_ne_none.2 (mt accepted_iff.2 h)) e
  rw [after_concat]
  exact congrArg Outcome.state hregister

end Executors

namespace Plan

variable {frame : Frame} {executors executors' : String → Option ε}

theorem mem_iterations_pos {n m : UInt32} (h : m ∈ iterations n) : 0 < n := by
  obtain ⟨k, hk, -⟩ := List.mem_map.1 h
  exact UInt32.lt_iff_toNat_lt.2 (Nat.zero_lt_of_lt (List.mem_range.1 hk))

theorem ofPassAt_congr {d : Pass} (h : executors d.execute = executors' d.execute) (scope : Scope)
    (position : Nat) (n : UInt32) :
    ofPassAt frame executors scope position d n = ofPassAt frame executors' scope position d n := by
  unfold ofPassAt
  rw [h]

/-- The executor of a pass matters only if the frame has an instance of the pass. -/
theorem ofPass_congr {d : Pass}
    (h : frame.admits d.condition = true → 0 < frame.instances d.repetition →
      executors d.execute = executors' d.execute) (scope : Scope) (position : Nat) :
    ofPass frame executors scope position d = ofPass frame executors' scope position d := by
  unfold ofPass
  by_cases ha : frame.admits d.condition = true
  · rw [if_pos ha, if_pos ha]
    refine List.flatMap_congr fun n hn => ?_
    exact ofPassAt_congr (h ha (mem_iterations_pos hn)) scope position n
  · rw [if_neg ha, if_neg ha]

end Plan

namespace Graph

open Executors Plan

variable {g : Graph} {frame : Frame} {executors executors' : String → Option ε}

/-- The frame has an instance of a pass that is executed under the name. -/
def Needs (g : Graph) (frame : Frame) (name : String) : Prop :=
  ∃ d ∈ g.passes, frame.admits d.condition = true ∧ 0 < frame.instances d.repetition ∧
    d.execute = name

theorem plan_congr (h : ∀ name, g.Needs frame name → executors name = executors' name) :
    g.plan frame executors = g.plan frame executors' := by
  have hpasses (scope : Scope) : g.passes.mapIdx (ofPass frame executors scope) =
      g.passes.mapIdx (ofPass frame executors' scope) := by
    refine List.mapIdx_eq_mapIdx_iff.2 fun i hi => ?_
    exact ofPass_congr (fun ha hn => h _ ⟨_, List.getElem_mem hi, ha, hn, rfl⟩) scope i
  unfold plan
  dsimp only
  rw [hpasses]

theorem build_congr {σ ι β π : Type} (engine : Engine σ ι β π ε)
    (h : ∀ name, g.Needs frame name → executors name = executors' name) :
    g.build engine frame executors = g.build engine frame executors' := by
  rw [(g.build_agrees_run engine frame executors).eq_map,
    (g.build_agrees_run engine frame executors').eq_map, plan_congr h]

/-- Lookups that answer alike for the names that the frame needs build alike. So do registered executors
with the same current ones, whatever calls led to them, and any function that answers like them. -/
theorem build_asks_needed (g : Graph) (frame : Frame) :
    (∀ executors executors' : String → Option ε,
      (∀ name, g.Needs frame name → executors name = executors' name) →
      ∀ (σ ι β π : Type) (engine : Engine σ ι β π ε),
        g.build engine frame executors = g.build engine frame executors') ∧
    (∀ (calls calls' : List (Executors.Call ε)) (find : String → Option ε),
      (∀ name, g.Needs frame name → ∀ e,
        (Current calls name e ↔ Current calls' name e) ∧ (find name = some e ↔ Current calls name e)) →
      ∀ (σ ι β π : Type) (engine : Engine σ ι β π ε),
        g.build engine frame (after {} calls).find? = g.build engine frame (after {} calls').find? ∧
        g.build engine frame (after {} calls).find? = g.build engine frame find) ∧
    (∀ (calls : List (Executors.Call ε)) (name : String) (e : ε),
      (Accepted calls name e ↔ ∀ e', ¬Current calls name e') ∧
      (¬Accepted calls name e → after {} (calls ++ [.register name e]) = after {} calls)) := by
  refine ⟨fun executors executors' h σ ι β π engine => build_congr engine h, ?_, ?_⟩
  · intro calls calls' find h σ ι β π engine
    refine ⟨build_congr engine fun name hname => ?_, build_congr engine fun name hname => ?_⟩
    · refine Option.ext fun e => ?_
      rw [find?_after_iff, find?_after_iff]
      exact (h name hname e).1
    · refine Option.ext fun e => ?_
      rw [find?_after_iff]
      exact (h name hname e).2.symm
  · intro calls name e
    exact ⟨accepted_iff_forall_not_current, after_concat_of_not_accepted⟩

/-- Two ways to an executor for `show`: one with a registration that is refused and one of a name that is
taken out again, and one with an executor for `draw`. -/
def callsForShow : List (Executors.Call Nat) :=
  [.register "show" 1, .register "draw" 5, .register "show" 2, .unregister "draw"]

def callsForBoth : List (Executors.Call Nat) :=
  [.unregister "show", .register "draw" 7, .register "show" 1]

/-- Without cascades, only `show` is needed. -/
theorem cascades_build_alike :
    (∀ name, cascades.Needs { shadowCascadeCount := 0 } name → ∀ e,
      (Current callsForShow name e ↔ Current callsForBoth name e) ∧
      ((fun n => if n = "show" then some 1 else none) name = some e ↔ Current callsForShow name e)) ∧
    cascades.build Recording.engine { shadowCascadeCount := 0 } (after {} callsForShow).find? =
      cascades.build Recording.engine { shadowCascadeCount := 0 } (after {} callsForBoth).find? := by
  have hneeds : ∀ name, cascades.Needs { shadowCascadeCount := 0 } name → name = "show" := by
    rintro name ⟨d, hd, -, hn, rfl⟩
    obtain rfl | hd := List.mem_cons.1 hd
    · exact absurd hn (by decide)
    · obtain rfl := List.mem_singleton.1 hd
      rfl
  have hshow : (after {} callsForShow).find? "show" = some 1 := by decide +kernel
  have hboth : (after {} callsForBoth).find? "show" = some 1 := by decide +kernel
  have hagree : ∀ name, cascades.Needs { shadowCascadeCount := 0 } name → ∀ e,
      (Current callsForShow name e ↔ Current callsForBoth name e) ∧
      ((fun n => if n = "show" then some 1 else none) name = some e ↔
        Current callsForShow name e) := by
    intro name hname e
    obtain rfl := hneeds name hname
    rw [← find?_after_iff, ← find?_after_iff, hshow, hboth]
    exact ⟨Iff.rfl, Iff.rfl⟩
  exact ⟨hagree, ((build_asks_needed cascades { shadowCascadeCount := 0 }).2.1 callsForShow callsForBoth _
    hagree _ _ _ _ Recording.engine).1⟩

end Graph

end FrameGraph
