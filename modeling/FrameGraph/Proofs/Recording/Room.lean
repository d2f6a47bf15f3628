import FrameGraph.Proofs.Recording.Extension
import Mathlib.Data.List.Nodup

namespace FrameGraph

variable {ε α β : Type}

/-- The names are distinct and none of them is taken. -/
def Apart (taken names : List String) : Prop := names.Nodup ∧ ∀ name ∈ names, name ∉ taken

theorem apart_nil (taken : List String) : Apart taken [] := ⟨List.nodup_nil, List.forall_mem_nil _⟩

theorem apart_append {taken names new : List String} (hnew : new.Nodup) :
    Apart taken (names ++ new) ↔
      Apart taken names ∧ ∀ name ∈ new, name ∉ taken ∧ name ∉ names := by
  unfold Apart
  rw [List.nodup_append, List.forall_mem_append]
  constructor
  · intro h
    obtain ⟨⟨hnodup, -, hne⟩, htaken, htaken'⟩ := h
    refine ⟨⟨hnodup, htaken⟩, fun name hname => ⟨htaken' name hname, fun hmem => ?_⟩⟩
    exact hne name hmem name hname rfl
  · intro h
    obtain ⟨⟨hnodup, htaken⟩, hfree⟩ := h
    refine ⟨⟨hnodup, hnew, ?_⟩, htaken, fun name hname => (hfree name hname).1⟩
    rintro n hn m hm rfl
    exact (hfree n hm).2 hn

theorem nodup_declared (x : PlanStep ε) (kind : RecordKind) : (x.declared kind).Nodup := by
  have honly (k : RecordKind) (name : String) : (k.only name kind).Nodup := by
    unfold RecordKind.only
    split
    · exact List.nodup_singleton name
    · exact List.nodup_nil
  cases x with
  | image | buffer | pass => exact honly _ _
  | command | note | stop => exact List.nodup_nil

namespace Account

variable (a : Account ε)

/-- A step adds to the names of an account those that it declares. -/
theorem names_apply (x : PlanStep ε) (kind : RecordKind) :
    (a.apply x).names kind = a.names kind ++ x.declared kind := by
  cases x with
  | image q => cases kind <;> simp [apply, names, imageNames, bufferNames, passNames,
      PlanStep.declared, RecordKind.only]
  | buffer q => cases kind <;> simp [apply, names, imageNames, bufferNames, passNames,
      PlanStep.declared, RecordKind.only]
  | pass q => cases kind <;> simp [apply, names, imageNames, bufferNames, passNames,
      PlanStep.declared, RecordKind.only]
  | command c =>
    show (a.tell c).names kind = a.names kind ++ []
    rw [List.append_nil]
    cases kind with
    | image => cases c <;> rfl
    | buffer => cases c <;> rfl
    | pass => exact a.passNames_tell c
  | note | stop => exact (List.append_nil _).symm

theorem presented_apply (x : PlanStep ε) :
    (a.apply x).presented = a.presented ++ x.presented := by
  cases x with
  | command c => cases c <;> simp [apply, tell, PlanStep.presented]
  | _ => exact (List.append_nil _).symm

end Account

namespace Recording

open Plan

variable {r base : Recording ε} {a : Account ε} {h : Handles ImageKey BufferKey PassKey}

structure Room (base : Recording ε) (a : Account ε) : Prop where
  apart : ∀ kind, Apart (base.taken kind) (a.names kind)
  presented : base.present.toList.length + a.presented.length ≤ 1

theorem room_empty (base : Recording ε) : Room base {} where
  apart kind := by cases kind <;> exact apart_nil _
  presented := by cases base.present <;> simp

theorem Extends.mem_taken_iff (he : Extends base a r) (kind : RecordKind) (name : String) :
    name ∈ r.taken kind ↔ name ∈ base.taken kind ∨ name ∈ a.names kind := by
  cases kind with
  | image => exact he.imageStore.taken name
  | buffer => exact he.bufferStore.taken name
  | pass => exact he.passStore.taken name

/-- A recording has an image to present if it had one or the account has one. -/
theorem Extends.present_eq_none_iff (he : Extends base a r) :
    r.present = none ↔ base.present.toList.length + a.presented.length = 0 := by
  rw [← he.presented.length]
  cases r.present <;> simp

/-- There is room for a step exactly if what it declares and presents has room beside the rest. -/
theorem room_apply_iff (x : PlanStep ε) : Room base (a.apply x) ↔ Room base a ∧
    (∀ kind, ∀ name ∈ x.declared kind, name ∉ base.taken kind ∧ name ∉ a.names kind) ∧
      base.present.toList.length + a.presented.length + x.presented.length ≤ 1 := by
  have hlength : (a.apply x).presented.length = a.presented.length + x.presented.length := by
    rw [a.presented_apply, List.length_append]
  constructor
  · intro h
    have hapart (kind : RecordKind) := h.apart kind
    simp only [a.names_apply, apart_append (nodup_declared x _)] at hapart
    have hpresented := h.presented
    rw [hlength] at hpresented
    exact ⟨⟨fun kind => (hapart kind).1, by omega⟩, fun kind => (hapart kind).2, by omega⟩
  · intro h
    obtain ⟨hroom, hfree, hpresented⟩ := h
    refine ⟨fun kind => ?_, by omega⟩
    rw [a.names_apply]
    exact (apart_append (nodup_declared x kind)).2 ⟨hroom.apart kind, hfree kind⟩

/-- What a step declares fits exactly if there is room for it too. -/
theorem Extends.fits_iff (he : Extends base a r) (hroom : Room base a) (x : PlanStep ε) :
    Fits r x ↔ Room base (a.apply x) := by
  have hsingle : x.presented.length ≤ 1 := by
    unfold PlanStep.presented
    split <;> simp
  have hpresented : (∀ name ∈ x.presented, r.present = none) ↔
      base.present.toList.length + a.presented.length + x.presented.length ≤ 1 := by
    have hold := hroom.presented
    rw [he.present_eq_none_iff]
    cases hx : x.presented with
    | nil => simpa using hold
    | cons name rest =>
      rw [hx] at hsingle
      simp only [List.length_cons] at hsingle ⊢
      constructor
      · intro h
        have hzero := h name (List.mem_cons_self ..)
        omega
      · intro h _ _
        omega
  rw [room_apply_iff, and_iff_right hroom, ← hpresented]
  simp only [← not_or, ← he.mem_taken_iff]
  exact ⟨fun h => ⟨h.declared, h.presented⟩, fun h => ⟨h.1, h.2⟩⟩

theorem Room.of_apply {x : PlanStep ε} (hroom : Room base (a.apply x)) : Room base a :=
  ((room_apply_iff x).1 hroom).1

theorem Room.of_after {p : Plan ε} (hroom : Room base (a.after p)) : Room base a := by
  induction p generalizing a with
  | nil => exact hroom
  | cons x p ih => exact (ih hroom).of_apply

/-- A run extends the recording by the account of the steps before its end: by that of all steps if it
succeeds, and up to a step that stops or has no room if it fails. -/
theorem Records.run {p : Plan ε} (hr : Records base a h r) (hroom : Room base a) (hp : Closed a p) :
    (∃ r' log h', run engine p h r = ⟨r', log, .ok h'⟩ ∧ Stopless p ∧ Room base (a.after p) ∧
      Records base (a.after p) h' r') ∨
    (∃ r' log e h' p₁ x p₂, run engine p h r = ⟨r', log, .error e⟩ ∧ p = p₁ ++ x :: p₂ ∧
      Stopless p₁ ∧ Room base (a.after p₁) ∧ Records base (a.after p₁) h' r' ∧
      (x.isStop = false → ¬Room base ((a.after p₁).apply x))) := by
  induction p generalizing a h r with
  | nil => exact .inl ⟨r, [], h, rfl, stopless_nil, hroom, hr⟩
  | cons x p ih =>
    cases hx : x.isStop with
    | true =>
      obtain ⟨e, rfl⟩ := PlanStep.exists_of_isStop hx
      rw [run_stop]
      exact .inr ⟨r, _, e, h, [], .stop e, p, rfl, rfl, stopless_nil, hroom, hr,
        fun hf => Bool.noConfusion hf⟩
    | false =>
      obtain ⟨hallows, hrest⟩ := closed_cons hp hx
      have hiff := hr.content.fits_iff hroom x
      unfold Plan.run
      obtain ⟨hfits, r₁, log₁, h₁, hstep, hr₁⟩ | ⟨hfits, log₁, e, hstep⟩ := hr.step hallows
      · rw [Action.bind_of_ok hstep]
        obtain ⟨r', log, h', hrun, hs, hroom', hr'⟩ |
            ⟨r', log, e, h', p₁, y, p₂, hrun, rfl, hs, hroom', hr', hy⟩ := ih hr₁ (hiff.1 hfits) hrest
        · rw [hrun]
          exact .inl ⟨r', _, h', rfl, stopless_cons.2 ⟨hx, hs⟩, hroom', hr'⟩
        · rw [hrun]
          exact .inr ⟨r', _, e, h', x :: p₁, y, p₂, rfl, rfl, stopless_cons.2 ⟨hx, hs⟩, hroom', hr',
            hy⟩
      · rw [Action.bind_of_error hstep]
        exact .inr ⟨r, _, e, h, [], x, p, rfl, rfl, stopless_nil, hroom, hr, fun _ => mt hiff.2 hfits⟩

/-- A run on a recording succeeds exactly if nothing in the plan stops it and there is room for all that
the plan declares. -/
theorem run_succeeds_iff (base : Recording ε) {p : Plan ε} (hp : Closed {} p) :
    (∃ h', (run engine p {} base).result = .ok h') ↔
      Stopless p ∧ Room base (({} : Account ε).after p) := by
  constructor
  · intro h
    obtain ⟨h', hresult⟩ := h
    obtain ⟨r', log, h'', -, hs, hroom, -⟩ | ⟨r', log, e, h'', p₁, x, p₂, hrun, -⟩ :=
      (records_empty base).run (room_empty base) hp
    · exact ⟨hs, hroom⟩
    · rw [hrun] at hresult
      exact absurd hresult (by simp)
  · intro h
    obtain ⟨hs, hroom⟩ := h
    obtain ⟨r', log, h', hrun, -⟩ | ⟨r', log, e, h', p₁, x, p₂, -, rfl, -, -, -, hx⟩ :=
      (records_empty base).run (room_empty base) hp
    · exact ⟨h', by rw [hrun]⟩
    · have hstop := hs x (List.mem_append_right _ (List.mem_cons_self ..))
      rw [Account.after_append, Account.after_cons] at hroom
      exact absurd hroom.of_after (hx hstop)

end Recording

end FrameGraph
