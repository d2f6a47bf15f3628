import FrameGraph.Table

namespace FrameGraph

/-- The key of something that a `τ` asked for: where it is kept, and how often that place was used. -/
@[ext] structure Key (τ : Type) where
  index : Nat
  version : Nat

instance {τ : Type} : DecidableEq (Key τ) := fun k l =>
  decidable_of_iff (k.index = l.index ∧ k.version = l.version) Key.ext_iff.symm

/-- The keys that one addition after the other gives out, as long as nothing is taken away: none of them
is given out twice. -/
structure Allotment (τ : Type) where
  key : Nat → Key τ
  injective : ∀ m n, key m = key n → m = n

/-- Places from one on, each of them used once. -/
def Allotment.standard (τ : Type) : Allotment τ where
  key n := ⟨n + 1, 1⟩
  injective _ _ h := Nat.succ.inj (congrArg Key.index h)

/-- Records in the order of their addition, and a table of the keys of their names. -/
structure Store (τ α : Type) where
  allotment : Allotment τ := .standard τ
  records : List α := []
  names : Table (Key τ) := ∅

namespace Store

variable {τ α β : Type}

/-- The place of a key among the records. -/
def position? (s : Store τ α) (k : Key τ) : Option Nat :=
  (List.range s.records.length).find? fun n => s.allotment.key n == k

def get? (s : Store τ α) (k : Key τ) : Option α := (s.position? k).bind (s.records[·]?)

def key? (s : Store τ α) (name : String) : Option (Key τ) := s.names[name]?

def named? (s : Store τ α) (name : String) : Option α := (s.key? name).bind s.get?

/-- The key that the next record gets. -/
def next (s : Store τ α) : Key τ := s.allotment.key s.records.length

def add (s : Store τ α) (name : String) (a : α) : Store τ α :=
  { s with records := s.records ++ [a], names := s.names.insert name s.next }

/-- Changes the record of a key, if there is one. -/
def modify (s : Store τ α) (k : Key τ) (change : α → α) : Store τ α :=
  match s.position? k with
  | some n => { s with records := s.records.modify n change }
  | none => s

theorem position?_eq_some_iff (s : Store τ α) (k : Key τ) (n : Nat) :
    s.position? k = some n ↔ n < s.records.length ∧ s.allotment.key n = k := by
  have hkey {m : Nat} (h : s.position? k = some m) : s.allotment.key m = k := by
    have htest := List.find?_some h
    exact eq_of_beq htest
  constructor
  · intro h
    exact ⟨List.mem_range.1 (List.mem_of_find?_eq_some h), hkey h⟩
  · intro h
    obtain ⟨hn, rfl⟩ := h
    have hfound : (s.position? (s.allotment.key n)).isSome = true :=
      List.find?_isSome.2 ⟨n, List.mem_range.2 hn, BEq.rfl⟩
    obtain ⟨m, hm⟩ := Option.isSome_iff_exists.1 hfound
    rw [hm, s.allotment.injective m n (hkey hm)]

theorem get?_eq_some_iff (s : Store τ α) (k : Key τ) (a : α) :
    s.get? k = some a ↔ ∃ n, s.allotment.key n = k ∧ s.records[n]? = some a := by
  unfold get?
  rw [Option.bind_eq_some_iff]
  constructor
  · intro h
    obtain ⟨n, hn, ha⟩ := h
    exact ⟨n, ((s.position?_eq_some_iff k n).1 hn).2, ha⟩
  · intro h
    obtain ⟨n, hn, ha⟩ := h
    obtain ⟨hlt, -⟩ := List.getElem?_eq_some_iff.1 ha
    exact ⟨n, (s.position?_eq_some_iff k n).2 ⟨hlt, hn⟩, ha⟩

theorem key?_add (s : Store τ α) (name n : String) (a : α) :
    (s.add name a).key? n = if name = n then some s.next else s.key? n :=
  Table.getElem?_insert s.names name n s.next

theorem get?_add_next (s : Store τ α) (name : String) (a : α) :
    (s.add name a).get? s.next = some a := by
  rw [get?_eq_some_iff]
  exact ⟨s.records.length, rfl, by simp [add]⟩

/-- A record stays under its key when others are added. -/
theorem get?_add_of_eq_some {s : Store τ α} {k : Key τ} {a : α} (h : s.get? k = some a)
    (name : String) (b : α) : (s.add name b).get? k = some a := by
  obtain ⟨n, hn, ha⟩ := (s.get?_eq_some_iff k a).1 h
  obtain ⟨hlt, -⟩ := List.getElem?_eq_some_iff.1 ha
  rw [get?_eq_some_iff]
  exact ⟨n, hn, (List.getElem?_append_left hlt).trans ha⟩

theorem allotment_modify (s : Store τ α) (k : Key τ) (change : α → α) :
    (s.modify k change).allotment = s.allotment := by
  unfold modify
  cases s.position? k <;> rfl

theorem key?_modify (s : Store τ α) (k : Key τ) (change : α → α) (name : String) :
    (s.modify k change).key? name = s.key? name := by
  unfold modify
  cases s.position? k <;> rfl

theorem length_modify (s : Store τ α) (k : Key τ) (change : α → α) :
    (s.modify k change).records.length = s.records.length := by
  unfold modify
  cases s.position? k with
  | none => rfl
  | some n => exact List.length_modify ..

theorem records_modify {s : Store τ α} {k : Key τ} {n : Nat} (h : s.position? k = some n)
    (change : α → α) : (s.modify k change).records = s.records.modify n change := by
  unfold modify
  rw [h]

end Store

end FrameGraph
