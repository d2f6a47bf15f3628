import Std.Data.ExtTreeMap

namespace FrameGraph

/-- What names stand for. -/
abbrev Table (α : Type) : Type := Std.ExtTreeMap String α

namespace Table

variable {α : Type}

theorem getElem?_insert (t : Table α) (name n : String) (a : α) :
    (t.insert name a)[n]? = if name = n then some a else t[n]? := by
  rw [Std.ExtTreeMap.getElem?_insert]
  simp

theorem getElem?_empty (n : String) : (∅ : Table α)[n]? = none := by
  simp

theorem mem_keys_iff (t : Table α) (n : String) : n ∈ t.keys ↔ t[n]?.isSome = true := by
  rw [Std.ExtTreeMap.mem_keys, Std.ExtTreeMap.mem_iff_isSome_getElem?]

/-- What a table says of names is all there is to it. -/
theorem ext {t u : Table α} (h : ∀ n : String, t[n]? = u[n]?) : t = u :=
  Std.ExtTreeMap.ext_getElem? h

end Table

end FrameGraph
