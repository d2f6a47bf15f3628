import FrameGraph.Action
import Std.Data.TreeMap

namespace FrameGraph

structure Executors (ε : Type) where
  byName : Std.TreeMap String ε := {}

namespace Executors

variable {ε : Type}

def origin : Origin := { source := "galaxy3d::ExecutorRegistry", file := "FrameGraph/Executors.lean" }

def find? (x : Executors ε) (name : String) : Option ε := x.byName[name]?

def contains (x : Executors ε) (name : String) : Bool := x.byName.contains name

def size (x : Executors ε) : Nat := x.byName.size

def names (x : Executors ε) : List String := x.byName.keys

def register (name : String) (executor : ε) : Action (Executors ε) Unit := do
  let x ← Action.get
  if x.contains name then
    Action.fail origin ⟨.semantic, name, s!"executor '{name}' is already registered"⟩
  Action.set ⟨x.byName.insert name executor⟩

/-- Takes a name out and returns its executor, if it had one. -/
def unregister (name : String) : Action (Executors ε) (Option ε) := do
  let x ← Action.get
  Action.set ⟨x.byName.erase name⟩
  return x.find? name

theorem contains_eq_isSome (x : Executors ε) (n : String) :
    x.contains n = (x.find? n).isSome := by
  simp [contains, find?]

/-- A registration takes effect when its name is free, and changes no other name. -/
theorem find?_register (x : Executors ε) (n m : String) (e : ε) :
    (register n e x).state.find? m =
      if x.contains n = false ∧ n = m then some e else x.find? m := by
  cases h : x.contains n <;>
    simp [register, bind, Action.bind, Action.get, Action.set, Action.fail, h,
      find?, Std.TreeMap.getElem?_insert]

theorem find?_unregister (x : Executors ε) (n m : String) :
    (unregister n x).state.find? m = if n = m then none else x.find? m := by
  simp [unregister, bind, Action.bind, Action.get, Action.set, pure, Action.pure, find?,
    Std.TreeMap.getElem?_erase]

end Executors

end FrameGraph
