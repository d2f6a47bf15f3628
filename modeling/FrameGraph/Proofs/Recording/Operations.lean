import FrameGraph.Engine.Recording
import FrameGraph.Proofs.Recording.Store

namespace FrameGraph

variable {ε ι β π τ α : Type}

/-- The pass that a command is about. -/
def Command.pass? : Command ι β π ε → Option π
  | .setFlags pass _ | .setDomain pass _ | .setExecutor pass _ | .addColor pass _ _
  | .setDepth pass _ _ _ | .useImage _ pass _ _ _ | .useBuffer _ pass _ _ _ => some pass
  | .setPresent _ | .exportImage _ | .exportBuffer _ => none

/-- The pass with what a command says about it. -/
def PassRecord.tell (p : PassRecord ε) : Command ImageKey BufferKey PassKey ε → PassRecord ε
  | .setFlags _ flags => { p with flags }
  | .setDomain _ domain => { p with domain }
  | .setExecutor _ executor => { p with executor }
  | .addColor _ image d => { p with colors := p.colors ++ [⟨image, d, false⟩] }
  | .setDepth _ image d readOnly => { p with depth := some ⟨image, d, readOnly⟩ }
  | .useImage mode _ image access binding => p.addImage ⟨image, access, binding⟩ mode
  | .useBuffer mode _ buffer access binding => p.addBuffer ⟨buffer, access, binding⟩ mode
  | .setPresent _ | .exportImage _ | .exportBuffer _ => p

theorem PassRecord.name_tell (p : PassRecord ε) (c : Command ImageKey BufferKey PassKey ε) :
    (p.tell c).name = p.name := by
  cases c with
  | useImage mode => cases mode <;> rfl
  | useBuffer mode => cases mode <;> rfl
  | _ => rfl

namespace Recording

variable (r : Recording ε)

def imageNames : List String := r.images.map (·.name)

def bufferNames : List String := r.buffers.map (·.name)

/-- The name of the image of a key. -/
def imageName? (k : ImageKey) : Option String := (r.image? k).map (·.name)

/-- The name of the buffer of a key. -/
def bufferName? (k : BufferKey) : Option String := (r.buffer? k).map (·.name)

/-- The outcome of an operation that fails and changes nothing. -/
def refused (e : Error) : Outcome (Recording ε) α := ⟨r, [Action.errorEntry origin e], .error e⟩

section

variable {what name : String} {a : α} {store : Recording ε → Store τ α}
  {put : Recording ε → Store τ α → Recording ε}

theorem declare_of_mem (h : name ∈ (store r).taken) :
    declare what name a store put r = r.refused (declared what name) := by
  have hk := ((store r).mem_taken_iff name).1 h
  unfold declare
  rw [Action.bind_of_ok (Action.get_apply r), if_pos hk]
  rfl

theorem declare_of_not_mem (h : name ∉ (store r).taken) :
    declare what name a store put r =
      ⟨put r ((store r).add name a), [], .ok (store r).next⟩ := by
  have hk := mt ((store r).mem_taken_iff name).2 h
  unfold declare
  rw [Action.bind_of_ok (Action.get_apply r), if_neg hk]
  rfl

end

/-- A command about a pass updates the pass of its key. -/
theorem perform_of_pass? {c : Command ImageKey BufferKey PassKey ε} {k : PassKey}
    (h : c.pass? = some k) : perform c = updatePass k (·.tell c) := by
  cases c <;> simp only [Command.pass?, reduceCtorEq, Option.some.injEq] at h <;> subst h <;> rfl

theorem updatePass_of_isSome {k : PassKey} (h : (r.pass? k).isSome = true)
    (change : PassRecord ε → PassRecord ε) :
    updatePass k change r =
      ⟨{ r with passStore := r.passStore.modify k change }, [], .ok ()⟩ := by
  have hk : ¬(r.pass? k).isNone = true := by
    rw [Option.isNone_iff_eq_none]
    exact Option.isSome_iff_ne_none.1 h
  unfold updatePass
  rw [Action.bind_of_ok (Action.get_apply r), if_neg hk]
  rfl

theorem updatePass_of_none {k : PassKey} (h : r.pass? k = none)
    (change : PassRecord ε → PassRecord ε) :
    updatePass k change r = r.refused ⟨.semantic, "pass", s!"invalid pass key {k.shown}"⟩ := by
  have hk : (r.pass? k).isNone = true := Option.isNone_iff_eq_none.2 h
  unfold updatePass
  rw [Action.bind_of_ok (Action.get_apply r), if_pos hk]
  rfl

theorem setPresent_of_isSome (image : ImageKey) (h : r.present.isSome = true) :
    perform (.setPresent image) r =
      r.refused ⟨.semantic, "present", "present image is already set"⟩ := by
  rw [perform, Action.bind_of_ok (Action.get_apply r), if_pos h]
  rfl

theorem setPresent_of_none (image : ImageKey) (h : r.present = none) :
    perform (.setPresent image) r = ⟨{ r with present := some image }, [], .ok ()⟩ := by
  have hs : ¬r.present.isSome = true := by simp [h]
  rw [perform, Action.bind_of_ok (Action.get_apply r), if_neg hs]
  rfl

end Recording

end FrameGraph
