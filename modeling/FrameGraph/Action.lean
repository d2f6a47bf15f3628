import FrameGraph.Error
import FrameGraph.Log.Entry

namespace FrameGraph

/-- What an action leaves behind. -/
structure Outcome (σ α : Type) where
  state : σ
  log : List Entry
  result : Except Error α

/-- An operation on a state that logs and may fail. What fails keeps the state that it reached and the
entries that it logged. -/
def Action (σ α : Type) : Type := σ → Outcome σ α

namespace Action

variable {σ τ α β : Type}

protected def pure (a : α) : Action σ α := fun s => ⟨s, [], .ok a⟩

protected def bind (x : Action σ α) (f : α → Action σ β) : Action σ β := fun s =>
  match x s with
  | ⟨s, log, .error e⟩ => ⟨s, log, .error e⟩
  | ⟨s, log, .ok a⟩ =>
    let next := f a s
    ⟨next.state, log ++ next.log, next.result⟩

instance : Monad (Action σ) where
  pure := Action.pure
  bind := Action.bind

def get : Action σ σ := fun s => ⟨s, [], .ok s⟩

def set (s : σ) : Action σ Unit := fun _ => ⟨s, [], .ok ()⟩

def log (e : Entry) : Action σ Unit := fun s => ⟨s, [e], .ok ()⟩

/-- Logs a message without a place. -/
def note (o : Origin) (severity : Severity) (message : String) : Action σ Unit :=
  log { severity, source := o.source, message }

/-- The entry under which an error is logged. -/
def errorEntry (o : Origin) (e : Error) : Entry :=
  { severity := .error, source := o.source, message := e.display, file := o.file, line := o.line }

/-- Fails without a word in the log. -/
def refuse (e : Error) : Action σ α := fun s => ⟨s, [], .error e⟩

/-- Logs an error and fails with it. -/
def fail (o : Origin) (e : Error) : Action σ α := fun s => ⟨s, [errorEntry o e], .error e⟩

/-- The action run on the second part of a state; the first part stays. -/
def onSecond (x : Action τ α) : Action (σ × τ) α := fun (s, t) =>
  let o := x t
  ⟨(s, o.state), o.log, o.result⟩

/-- The action run on the first part of a state; the second part stays. -/
def onFirst (x : Action σ α) : Action (σ × τ) α := fun (s, t) =>
  let o := x s
  ⟨(o.state, t), o.log, o.result⟩

/-- The action, and another one in place of its failure. -/
def orElse (x : Action σ α) (recover : Error → Action σ α) : Action σ α := fun s =>
  match x s with
  | ⟨s, log, .error e⟩ =>
    let next := recover e s
    ⟨next.state, log ++ next.log, next.result⟩
  | o => o

/-- `n` steps, numbered from `i`, each on the value that the one before it returned. The first failure
ends them. -/
def iterate (step : Nat → α → Action σ α) : (n i : Nat) → α → Action σ α
  | 0, _, a => pure a
  | n + 1, i, a => do iterate step n (i + 1) (← step i a)

/-- A step for each member of a list, with its position counted from `i`. -/
def forEach (step : Nat → α → β → Action σ β) : (i : Nat) → List α → β → Action σ β
  | _, [], b => pure b
  | i, a :: as, b => do forEach step (i + 1) as (← step i a b)

theorem get_apply (s : σ) : (get : Action σ σ) s = ⟨s, [], .ok s⟩ := rfl

theorem fail_apply (o : Origin) (e : Error) (s : σ) :
    (fail o e : Action σ α) s = ⟨s, [errorEntry o e], .error e⟩ := rfl

theorem note_apply (o : Origin) (severity : Severity) (message : String) (s : σ) :
    note o severity message s = ⟨s, [{ severity, source := o.source, message }], .ok ()⟩ := rfl

theorem pure_apply (a : α) (s : σ) : (pure a : Action σ α) s = ⟨s, [], .ok a⟩ := rfl

theorem bind_of_ok {x : Action σ α} {f : α → Action σ β} {s t : σ} {log : List Entry} {a : α}
    (h : x s = ⟨t, log, .ok a⟩) :
    (x >>= f) s = ⟨(f a t).state, log ++ (f a t).log, (f a t).result⟩ := by
  show Action.bind x f s = _
  simp [Action.bind, h]

theorem bind_of_error {x : Action σ α} {f : α → Action σ β} {s t : σ} {log : List Entry} {e : Error}
    (h : x s = ⟨t, log, .error e⟩) : (x >>= f) s = ⟨t, log, .error e⟩ := by
  show Action.bind x f s = _
  simp [Action.bind, h]

protected theorem bind_assoc {γ : Type} (x : Action σ α) (f : α → Action σ β)
    (g : β → Action σ γ) : x >>= f >>= g = x >>= fun a => f a >>= g := by
  funext s
  show Action.bind (Action.bind x f) g s = Action.bind x (fun a => Action.bind (f a) g) s
  unfold Action.bind
  rcases x s with ⟨t, l, _ | a⟩
  · rfl
  · dsimp only
    rcases f a t with ⟨u, m, _ | b⟩
    · rfl
    · simp

instance : LawfulMonad (Action σ) := LawfulMonad.mk' (Action σ)
  (by
    intro α x
    funext s
    show Action.bind x (fun a => Action.pure a) s = x s
    unfold Action.bind Action.pure
    rcases x s with ⟨t, l, _ | a⟩ <;> simp)
  (by
    intro α β a f
    funext s
    rfl)
  (fun x f g => Action.bind_assoc x f g)

theorem map_apply (f : α → β) (x : Action σ α) (s : σ) :
    (f <$> x) s = ⟨(x s).state, (x s).log, (x s).result.map f⟩ := by
  rw [map_eq_pure_bind]
  rcases hx : x s with ⟨t, log, e | a⟩
  · rw [bind_of_error hx]
    rfl
  · rw [bind_of_ok hx]
    simp [pure_apply, Except.map]

/-- A mapped action succeeds only by way of the action. -/
theorem map_eq_ok {f : α → β} {x : Action σ α} {s t : σ} {log : List Entry} {b : β}
    (h : (f <$> x) s = ⟨t, log, .ok b⟩) : ∃ a, x s = ⟨t, log, .ok a⟩ ∧ f a = b := by
  rw [map_apply] at h
  rcases hx : x s with ⟨u, log', e | a⟩
  · rw [hx] at h
    exact absurd (congrArg Outcome.result h) nofun
  · rw [hx] at h
    obtain ⟨rfl, rfl, hb⟩ : u = t ∧ log' = log ∧ f a = b := by simpa [Except.map] using h
    exact ⟨a, rfl, hb⟩

end Action

end FrameGraph
