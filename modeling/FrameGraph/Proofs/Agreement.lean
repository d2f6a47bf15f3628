import FrameGraph.Action

namespace FrameGraph.Action

variable {σ α β γ δ : Type}

/-- The same error, or related values. -/
inductive Alike (R : α → β → Prop) : Except Error α → Except Error β → Prop where
  | ok {a : α} {b : β} (h : R a b) : Alike R (.ok a) (.ok b)
  | error (e : Error) : Alike R (.error e) (.error e)

def Agrees (R : α → β → Prop) (x : Action σ α) (y : Action σ β) : Prop :=
  ∀ s, (x s).state = (y s).state ∧ (x s).log = (y s).log ∧ Alike R (x s).result (y s).result

theorem agrees_pure {R : α → β → Prop} {a : α} {b : β} (h : R a b) :
    Agrees R (pure a : Action σ α) (pure b) :=
  fun _ => ⟨rfl, rfl, .ok h⟩

theorem agrees_fail (R : α → β → Prop) (o : Origin) (e : Error) :
    Agrees R (fail o e : Action σ α) (fail o e) :=
  fun _ => ⟨rfl, rfl, .error e⟩

theorem agrees_refl (x : Action σ α) : Agrees Eq x x := by
  intro s
  refine ⟨rfl, rfl, ?_⟩
  cases (x s).result with
  | error e => exact .error e
  | ok a => exact .ok rfl

theorem Agrees.bind {R : α → β → Prop} {S : γ → δ → Prop} {x : Action σ α} {y : Action σ β}
    {f : α → Action σ γ} {g : β → Action σ δ} (h : Agrees R x y)
    (hfg : ∀ a b, R a b → Agrees S (f a) (g b)) : Agrees S (x >>= f) (y >>= g) := by
  intro s
  obtain ⟨hs, hl, hr⟩ := h s
  rcases hx : x s with ⟨t, log, result⟩
  rcases hy : y s with ⟨t', log', result'⟩
  rw [hx, hy] at hs hl hr
  obtain rfl : t = t' := hs
  obtain rfl : log = log' := hl
  cases hr with
  | error e =>
    rw [bind_of_error hx, bind_of_error hy]
    exact ⟨rfl, rfl, .error e⟩
  | ok hab =>
    obtain ⟨hs', hl', hr'⟩ := hfg _ _ hab t
    rw [bind_of_ok hx, bind_of_ok hy]
    exact ⟨hs', congrArg (log ++ ·) hl', hr'⟩

/-- Two loops over one list agree if their rounds do, with a relation on the members done so far. -/
theorem Agrees.forEach (R : List α → β → γ → Prop) {f : Nat → α → β → Action σ β}
    {g : Nat → α → γ → Action σ γ}
    (h : ∀ done a b c, R done b c → Agrees (R (done ++ [a])) (f done.length a b) (g done.length a c))
    (as : List α) {b : β} {c : γ} (hbc : R [] b c) :
    Agrees (R as) (forEach f 0 as b) (forEach g 0 as c) := by
  suffices key : ∀ done b c, R done b c →
      Agrees (R (done ++ as)) (Action.forEach f done.length as b)
        (Action.forEach g done.length as c) from key [] b c hbc
  induction as with
  | nil =>
    intro done b c hR
    rw [List.append_nil]
    exact agrees_pure hR
  | cons a as ih =>
    intro done b c hR
    have hlen : (done ++ [a]).length = done.length + 1 := by simp
    have hrest := ih (done ++ [a])
    rw [List.append_assoc, List.singleton_append, hlen] at hrest
    exact (h done a b c hR).bind fun b' c' hR' => hrest b' c' hR'

theorem Agrees.iterate (R : Nat → β → γ → Prop) {f : Nat → β → Action σ β}
    {g : Nat → γ → Action σ γ}
    (h : ∀ i b c, R i b c → Agrees (R (i + 1)) (f i b) (g i c)) (n : Nat) {b : β} {c : γ}
    (hbc : R 0 b c) : Agrees (R n) (iterate f n 0 b) (iterate g n 0 c) := by
  suffices key : ∀ i b c, R i b c →
      Agrees (R (i + n)) (Action.iterate f n i b) (Action.iterate g n i c) by
    have := key 0 b c hbc
    rwa [Nat.zero_add] at this
  induction n with
  | zero => exact fun i b c hR => agrees_pure hR
  | succ n ih =>
    intro i b c hR
    have hi : i + (n + 1) = i + 1 + n := by omega
    rw [hi]
    exact (h i b c hR).bind fun b' c' hR' => ih (i + 1) b' c' hR'

/-- Actions that agree on a value computed from the other's are one action. -/
theorem Agrees.eq_map {f : β → α} {x : Action σ α} {y : Action σ β}
    (h : Agrees (fun a b => a = f b) x y) : x = f <$> y := by
  funext s
  obtain ⟨hs, hl, hr⟩ := h s
  rw [map_eq_pure_bind]
  rcases hx : x s with ⟨t, log, result⟩
  rcases hy : y s with ⟨t', log', result'⟩
  rw [hx, hy] at hs hl hr
  obtain rfl : t = t' := hs
  obtain rfl : log = log' := hl
  cases hr with
  | error e => exact (bind_of_error hy).symm
  | ok hab =>
    rw [bind_of_ok hy, hab]
    simp [pure_apply]

end FrameGraph.Action
