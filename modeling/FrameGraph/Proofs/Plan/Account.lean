import FrameGraph.Plan
import Mathlib.Data.List.Induction

namespace FrameGraph

structure UseAccount where
  resource : String
  access : Access
  binding : Binding

structure AttachmentAccount where
  image : String
  description : AttachmentDescription
  readOnly : Bool

structure PassAccount (ε : Type) where
  name : String
  type : PassType
  flags : FlagSet PassFlag := .empty
  domain : Option Domain := none
  executor : Option ε := none
  colors : List AttachmentAccount := []
  depth : Option AttachmentAccount := none
  reads : List UseAccount := []
  writes : List UseAccount := []

structure Account (ε : Type) where
  images : List ImageRequest := []
  buffers : List BufferRequest := []
  passes : List (PassAccount ε) := []
  /-- the images made the present one, in turn -/
  presented : List String := []
  exportedImages : List String := []
  exportedBuffers : List String := []

/-- The command is about what leaves the graph, not about a pass. -/
def Command.isOutput {ι β π ε : Type} : Command ι β π ε → Bool
  | .setPresent _ | .exportImage _ | .exportBuffer _ => true
  | _ => false

namespace PassAccount

variable {ε : Type} (p : PassAccount ε)

def use (us : List UseAccount) : UseMode → PassAccount ε
  | .read => { p with reads := p.reads ++ us }
  | .write => { p with writes := p.writes ++ us }

/-- The pass with what a command says about it. -/
def tell : Command String String Unit ε → PassAccount ε
  | .setFlags _ flags => { p with flags }
  | .setDomain _ domain => { p with domain }
  | .setExecutor _ executor => { p with executor }
  | .addColor _ image a => { p with colors := p.colors ++ [⟨image, a, false⟩] }
  | .setDepth _ image a readOnly => { p with depth := some ⟨image, a, readOnly⟩ }
  | .useImage mode _ image access binding => p.use [⟨image, .image access, binding⟩] mode
  | .useBuffer mode _ buffer access binding => p.use [⟨buffer, .buffer access, binding⟩] mode
  | .setPresent _ | .exportImage _ | .exportBuffer _ => p

/-- The pass after a step that follows its request. -/
def apply : PlanStep ε → PassAccount ε
  | .command c => p.tell c
  | _ => p

theorem tell_name (c : Command String String Unit ε) : (p.tell c).name = p.name := by
  cases c with
  | useImage mode | useBuffer mode => cases mode <;> rfl
  | _ => rfl

theorem foldl_use {κ : Type} (us : κ → List UseAccount) (mode : UseMode) (ks : List κ) :
    ks.foldl (fun p k => p.use (us k) mode) p = p.use (ks.flatMap us) mode := by
  induction ks generalizing p with
  | nil => cases mode <;> simp [use]
  | cons k ks ih =>
    rw [List.foldl_cons, ih, List.flatMap_cons]
    cases mode <;> simp [use]

end PassAccount

namespace Account

variable {ε : Type} (a : Account ε)

def imageNames : List String := a.images.map (·.name)

def bufferNames : List String := a.buffers.map (·.name)

def passNames : List String := a.passes.map (·.name)

/-- The account with what a command says about an output or about the last pass. -/
def tell : Command String String Unit ε → Account ε
  | .setPresent image => { a with presented := a.presented ++ [image] }
  | .exportImage image => { a with exportedImages := a.exportedImages ++ [image] }
  | .exportBuffer buffer => { a with exportedBuffers := a.exportedBuffers ++ [buffer] }
  | c => { a with passes := a.passes.modify (a.passes.length - 1) (·.tell c) }

def apply : PlanStep ε → Account ε
  | .image q => { a with images := a.images ++ [q] }
  | .buffer q => { a with buffers := a.buffers ++ [q] }
  | .pass q => { a with passes := a.passes ++ [{ name := q.name, type := q.type }] }
  | .command c => a.tell c
  | .note .. | .stop _ => a

/-- The account after all steps of a plan. -/
def after (p : Plan ε) : Account ε := p.foldl apply a

/-- The account with more images and buffers. -/
def addResources (images : List ImageRequest) (buffers : List BufferRequest) : Account ε :=
  { a with images := a.images ++ images, buffers := a.buffers ++ buffers }

/-- The account with more passes. -/
def addPasses (ps : List (PassAccount ε)) : Account ε := { a with passes := a.passes ++ ps }

theorem after_nil : a.after [] = a := rfl

theorem after_cons (s : PlanStep ε) (p : Plan ε) : a.after (s :: p) = (a.apply s).after p := rfl

theorem after_append (p q : Plan ε) : a.after (p ++ q) = (a.after p).after q :=
  List.foldl_append

theorem addResources_nil : a.addResources [] [] = a := by
  simp [addResources]

theorem foldl_addResources {κ : Type} (is : κ → List ImageRequest) (bs : κ → List BufferRequest)
    (ks : List κ) : ks.foldl (fun a k => a.addResources (is k) (bs k)) a =
      a.addResources (ks.flatMap is) (ks.flatMap bs) := by
  induction ks generalizing a with
  | nil => exact a.addResources_nil.symm
  | cons k ks ih =>
    rw [List.foldl_cons, ih]
    simp [addResources]

theorem addPasses_nil : a.addPasses [] = a := by
  simp [addPasses]

theorem foldl_addPasses {κ : Type} (ps : κ → List (PassAccount ε)) (ks : List κ) :
    ks.foldl (fun a k => a.addPasses (ps k)) a = a.addPasses (ks.flatMap ps) := by
  induction ks generalizing a with
  | nil => exact a.addPasses_nil.symm
  | cons k ks ih =>
    rw [List.foldl_cons, ih]
    simp [addPasses]

theorem tell_of_not_isOutput {c : Command String String Unit ε} (hc : c.isOutput = false) :
    a.tell c = { a with passes := a.passes.modify (a.passes.length - 1) (·.tell c) } := by
  cases c <;> simp [Command.isOutput] at hc <;> rfl

theorem modify_concat {α : Type} (as : List α) (x : α) (f : α → α) :
    (as ++ [x]).modify as.length f = as ++ [f x] := by
  induction as with
  | nil => rfl
  | cons y as ih => simpa using ih

/-- A command about a pass goes to the pass requested last. -/
theorem apply_addPasses (p : PassAccount ε) {c : Command String String Unit ε}
    (hc : c.isOutput = false) :
    (a.addPasses [p]).apply (.command c) = a.addPasses [p.tell c] := by
  show (a.addPasses [p]).tell c = _
  rw [tell_of_not_isOutput _ hc]
  simp [addPasses, modify_concat]

/-- The command is about names that the account holds, and about a pass only if there is one. -/
def Holds : Command String String Unit ε → Prop
  | .setFlags .. | .setDomain .. | .setExecutor .. => a.passes ≠ []
  | .addColor _ image _ | .setDepth _ image _ _ | .useImage _ _ image _ _ =>
    a.passes ≠ [] ∧ image ∈ a.imageNames
  | .useBuffer _ _ buffer _ _ => a.passes ≠ [] ∧ buffer ∈ a.bufferNames
  | .setPresent image | .exportImage image => image ∈ a.imageNames
  | .exportBuffer buffer => buffer ∈ a.bufferNames

end Account

namespace PlanStep

variable {ε : Type}

def isStop : PlanStep ε → Bool
  | .stop _ => true
  | _ => false

theorem exists_of_isStop {x : PlanStep ε} (hx : x.isStop = true) : ∃ e, x = .stop e := by
  cases x with
  | stop e => exact ⟨e, rfl⟩
  | _ => exact absurd hx Bool.noConfusion

/-- The step requests an image or a buffer, or does nothing to an account. -/
def isOfResource : PlanStep ε → Bool
  | .image _ | .buffer _ | .note .. | .stop _ => true
  | .pass _ | .command _ => false

/-- The step is about the pass that was requested last, or does nothing to an account. -/
def isInPass : PlanStep ε → Bool
  | .command c => !c.isOutput
  | .note .. | .stop _ => true
  | .image _ | .buffer _ | .pass _ => false

end PlanStep

namespace Plan

variable {ε α κ : Type}

/-- The plan runs to its end unless the engine refuses something. -/
def Stopless (p : Plan ε) : Prop := ∀ s ∈ p, s.isStop = false

instance (p : Plan ε) : Decidable (Stopless p) :=
  inferInstanceAs (Decidable (∀ s ∈ p, s.isStop = false))

/-- Each command, up to the first stop, is about names that the account holds by then. -/
def Closed : Account ε → Plan ε → Prop
  | _, [] => True
  | _, .stop _ :: _ => True
  | a, .command c :: p => a.Holds c ∧ Closed (a.tell c) p
  | a, s :: p => Closed (a.apply s) p

theorem stopless_nil : Stopless ([] : Plan ε) := List.forall_mem_nil _

theorem stopless_cons {s : PlanStep ε} {p : Plan ε} :
    Stopless (s :: p) ↔ s.isStop = false ∧ Stopless p :=
  List.forall_mem_cons

theorem stopless_append {p q : Plan ε} : Stopless (p ++ q) ↔ Stopless p ∧ Stopless q :=
  List.forall_mem_append

theorem stopless_flatMap {f : κ → Plan ε} {ks : List κ} :
    Stopless (ks.flatMap f) ↔ ∀ k ∈ ks, Stopless (f k) := by
  unfold Stopless
  constructor
  · intro h k hk s hs
    exact h s (List.mem_flatMap.2 ⟨k, hk, hs⟩)
  · intro h s hs
    obtain ⟨k, hk, hs⟩ := List.mem_flatMap.1 hs
    exact h k hk s hs

/-- The parts of a plan for the members of a list stop nowhere if none of them does. -/
theorem stopless_mapIdx {f : Nat → α → Plan ε} {P : α → Prop}
    (hP : ∀ i a, Stopless (f i a) ↔ P a) (as : List α) :
    Stopless (as.mapIdx f).flatten ↔ ∀ a ∈ as, P a := by
  induction as using List.reverseRecOn with
  | nil => simp [stopless_nil]
  | append_singleton as a ih =>
    rw [List.mapIdx_concat, List.flatten_append, List.flatten_singleton, stopless_append, ih, hP]
    simp [or_imp, forall_and]

/-- Parts of a plan that stop nowhere, each with its own effect. -/
theorem foldl_flatMap_of_stopless {γ : Type} {apply : γ → PlanStep ε → γ} {f : κ → Plan ε}
    {told : γ → κ → γ} (hf : ∀ k a, Stopless (f k) → (f k).foldl apply a = told a k) (a : γ)
    {ks : List κ} (hs : Stopless (ks.flatMap f)) :
    (ks.flatMap f).foldl apply a = ks.foldl told a := by
  induction ks generalizing a with
  | nil => rfl
  | cons k ks ih =>
    rw [List.flatMap_cons, stopless_append] at hs
    rw [List.flatMap_cons, List.foldl_append, hf k a hs.1, List.foldl_cons]
    exact ih _ hs.2

theorem foldl_mapIdx_of_stopless {γ : Type} {apply : γ → PlanStep ε → γ} {f : Nat → κ → Plan ε}
    {told : γ → κ → γ} (hf : ∀ i k a, Stopless (f i k) → (f i k).foldl apply a = told a k) (a : γ)
    {ks : List κ} (hs : Stopless (ks.mapIdx f).flatten) :
    (ks.mapIdx f).flatten.foldl apply a = ks.foldl told a := by
  induction ks using List.reverseRecOn with
  | nil => rfl
  | append_singleton ks k ih =>
    rw [List.mapIdx_concat, List.flatten_append, List.flatten_singleton, stopless_append] at hs
    rw [List.mapIdx_concat, List.flatten_append, List.flatten_singleton, List.foldl_append, ih hs.1,
      hf _ k _ hs.2, List.foldl_append]
    rfl

theorem closed_append {a : Account ε} {p q : Plan ε} :
    Closed a (p ++ q) ↔ Closed a p ∧ (Stopless p → Closed (a.after p) q) := by
  induction p generalizing a with
  | nil => simp [Closed, Account.after_nil, stopless_nil]
  | cons s p ih =>
    rw [List.cons_append, Account.after_cons, stopless_cons]
    cases s with
    | stop e => simp [Closed, PlanStep.isStop]
    | command c => simp [Closed, ih, PlanStep.isStop, Account.apply, and_assoc]
    | _ => simp [Closed, ih, PlanStep.isStop]

/-- A plan without commands is closed. -/
theorem closed_of_isOfResource {p : Plan ε} (hp : ∀ s ∈ p, s.isOfResource = true) (a : Account ε) :
    Closed a p := by
  induction p generalizing a with
  | nil => trivial
  | cons s p ih =>
    have hrest := ih (fun t ht => hp t (List.mem_cons_of_mem _ ht))
    cases s with
    | command c => exact absurd (hp _ (List.mem_cons_self ..)) Bool.false_ne_true
    | stop e => trivial
    | _ => exact hrest _

/-- The account of the steps of one pass. -/
theorem after_addPasses (a : Account ε) {p : Plan ε} (hp : ∀ s ∈ p, s.isInPass = true)
    (d : PassAccount ε) :
    (a.addPasses [d]).after p = a.addPasses [p.foldl PassAccount.apply d] := by
  induction p generalizing d with
  | nil => rfl
  | cons s p ih =>
    have hrest := ih (fun t ht => hp t (List.mem_cons_of_mem _ ht))
    have hs := hp s (List.mem_cons_self ..)
    rw [Account.after_cons, List.foldl_cons]
    cases s with
    | command c =>
      have hc : c.isOutput = false := by simpa [PlanStep.isInPass] using hs
      rw [Account.apply_addPasses a d hc]
      exact hrest _
    | note severity message => exact hrest d
    | stop e => exact hrest d
    | image q => exact absurd hs Bool.false_ne_true
    | buffer q => exact absurd hs Bool.false_ne_true
    | pass q => exact absurd hs Bool.false_ne_true

end Plan

end FrameGraph
