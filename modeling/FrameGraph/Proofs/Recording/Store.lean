import FrameGraph.Engine.Store
import Mathlib.Data.List.Nodup

namespace FrameGraph

theorem map_modify_of_eq {α β : Type} {f : α → α} {g : α → β} (hg : ∀ a, g (f a) = g a)
    (as : List α) (i : Nat) : (as.modify i f).map g = as.map g := by
  induction as generalizing i with
  | nil => cases i <;> rfl
  | cons a as ih =>
    cases i with
    | zero => simp [hg]
    | succ i => simp [ih]

namespace Store

variable {τ α β : Type} {s base : Store τ α} {nameOf : α → String}

/-- The names in the table. -/
def taken (s : Store τ α) : List String := s.names.keys

theorem mem_taken_iff (s : Store τ α) (name : String) :
    name ∈ s.taken ↔ (s.key? name).isSome = true :=
  Table.mem_keys_iff s.names name

theorem key?_eq_none_of_not_mem {name : String} (h : name ∉ s.taken) : s.key? name = none := by
  rw [mem_taken_iff, Option.not_isSome_iff_eq_none] at h
  exact h

theorem mem_taken_add (s : Store τ α) (name : String) (a : α) (n : String) :
    n ∈ (s.add name a).taken ↔ n ∈ s.taken ∨ n = name := by
  rw [mem_taken_iff, mem_taken_iff, key?_add]
  by_cases hn : name = n
  · simp [hn]
  · rw [if_neg hn]
    exact (or_iff_left fun h => hn h.symm).symm

theorem get?_add_eq_some_iff (s : Store τ α) (name : String) (a b : α) (k : Key τ) :
    (s.add name a).get? k = some b ↔ s.get? k = some b ∨ (k = s.next ∧ b = a) := by
  constructor
  · intro h
    obtain ⟨n, rfl, hn⟩ := ((s.add name a).get?_eq_some_iff k b).1 h
    obtain ⟨hlt, hb⟩ := List.getElem?_eq_some_iff.1 hn
    rcases Nat.lt_or_ge n s.records.length with hold | hnew
    · have hb' : s.records[n]? = some b := (List.getElem?_append_left hold).symm.trans hn
      exact .inl ((s.get?_eq_some_iff _ b).2 ⟨n, rfl, hb'⟩)
    · have hlength : n < s.records.length + 1 := by simpa [add] using hlt
      obtain rfl : n = s.records.length := by omega
      exact .inr ⟨rfl, by simpa [add] using hb.symm⟩
  · intro h
    obtain hold | ⟨rfl, rfl⟩ := h
    · exact get?_add_of_eq_some hold name a
    · exact s.get?_add_next name b

theorem position?_modify (s : Store τ α) (k k' : Key τ) (change : α → α) :
    (s.modify k change).position? k' = s.position? k' := by
  unfold position?
  rw [allotment_modify, length_modify]

theorem get?_modify (s : Store τ α) (k k' : Key τ) (change : α → α) :
    (s.modify k change).get? k' = if k = k' then (s.get? k').map change else s.get? k' := by
  unfold get?
  rw [position?_modify]
  cases hk' : s.position? k' with
  | none => simp
  | some m =>
    cases hk : s.position? k with
    | none =>
      have hne : k ≠ k' := by
        rintro rfl
        exact absurd (hk.symm.trans hk') nofun
      unfold modify
      rw [hk, if_neg hne]
    | some n =>
      rw [records_modify hk, Option.bind_some, Option.bind_some, List.getElem?_modify]
      by_cases hkk : k = k'
      · subst hkk
        obtain rfl := Option.some.inj (hk.symm.trans hk')
        simp
      · have hne : n ≠ m := by
          rintro rfl
          have hkey := ((s.position?_eq_some_iff k n).1 hk).2
          exact hkk (hkey.symm.trans ((s.position?_eq_some_iff k' n).1 hk').2)
        simp [hkk, hne]

/-- The records stay under their keys when others follow them. -/
theorem get?_of_prefix {s' : Store τ α} (hallotment : s'.allotment = s.allotment)
    (hrecords : s.records <+: s'.records) {k : Key τ} {a : α} (h : s.get? k = some a) :
    s'.get? k = some a := by
  obtain ⟨n, hn, ha⟩ := (s.get?_eq_some_iff k a).1 h
  obtain ⟨hlt, -⟩ := List.getElem?_eq_some_iff.1 ha
  obtain ⟨more, hmore⟩ := hrecords
  rw [get?_eq_some_iff]
  refine ⟨n, hallotment ▸ hn, ?_⟩
  rw [← hmore, List.getElem?_append_left hlt]
  exact ha

/-- The table holds the names of the records, each with the key of its record. -/
def Consistent (nameOf : α → String) (s : Store τ α) : Prop :=
  ∀ name k, s.key? name = some k ↔ ∃ a, s.get? k = some a ∧ nameOf a = name

theorem consistent_empty (allotment : Allotment τ) (nameOf : α → String) :
    Consistent nameOf ({ allotment } : Store τ α) := by
  intro name k
  have hkey : ({ allotment } : Store τ α).key? name = none := Table.getElem?_empty name
  have hget : ({ allotment } : Store τ α).get? k = none := rfl
  simp [hkey, hget]

theorem Consistent.add (h : s.Consistent nameOf) {a : α} (ha : s.key? (nameOf a) = none) :
    (s.add (nameOf a) a).Consistent nameOf := by
  intro name k
  rw [key?_add]
  constructor
  · intro hk
    by_cases hname : nameOf a = name
    · rw [if_pos hname] at hk
      obtain rfl := Option.some.inj hk
      exact ⟨a, s.get?_add_next _ a, hname⟩
    · rw [if_neg hname] at hk
      obtain ⟨b, hb, hbname⟩ := (h name k).1 hk
      exact ⟨b, get?_add_of_eq_some hb _ a, hbname⟩
  · intro hk
    obtain ⟨b, hb, rfl⟩ := hk
    obtain hold | ⟨rfl, rfl⟩ := (s.get?_add_eq_some_iff _ a b k).1 hb
    · have hkey := (h (nameOf b) k).2 ⟨b, hold, rfl⟩
      have hname : nameOf a ≠ nameOf b := by
        intro heq
        rw [heq, hkey] at ha
        exact absurd ha nofun
      rw [if_neg hname]
      exact hkey
    · rw [if_pos rfl]

theorem Consistent.modify (h : s.Consistent nameOf) (k : Key τ) {change : α → α}
    (hchange : ∀ a, nameOf (change a) = nameOf a) : (s.modify k change).Consistent nameOf := by
  intro name k'
  rw [key?_modify, h name k', get?_modify]
  by_cases hk : k = k'
  · simp [hk, hchange]
  · rw [if_neg hk]

/-- In a consistent store, the record of a name is the one that has it. -/
theorem Consistent.named?_eq_some_iff (h : s.Consistent nameOf) (name : String) (a : α) :
    s.named? name = some a ↔ a ∈ s.records ∧ nameOf a = name := by
  unfold named?
  rw [Option.bind_eq_some_iff]
  constructor
  · intro hnamed
    obtain ⟨k, hk, ha⟩ := hnamed
    obtain ⟨b, hb, hname⟩ := (h name k).1 hk
    obtain rfl := Option.some.inj (hb.symm.trans ha)
    obtain ⟨n, -, hn⟩ := (s.get?_eq_some_iff k b).1 ha
    exact ⟨List.mem_of_getElem? hn, hname⟩
  · intro ha
    obtain ⟨hmem, hname⟩ := ha
    obtain ⟨n, hn⟩ := List.mem_iff_getElem?.1 hmem
    have hget : s.get? (s.allotment.key n) = some a := (s.get?_eq_some_iff _ a).2 ⟨n, rfl, hn⟩
    exact ⟨_, (h name _).2 ⟨a, hget, hname⟩, hget⟩

theorem Consistent.mem_taken_iff (h : s.Consistent nameOf) (name : String) :
    name ∈ s.taken ↔ name ∈ s.records.map nameOf := by
  rw [Store.mem_taken_iff, List.mem_map, Option.isSome_iff_exists]
  constructor
  · intro hk
    obtain ⟨k, hk⟩ := hk
    obtain ⟨a, ha, hname⟩ := (h name k).1 hk
    obtain ⟨n, -, hn⟩ := (s.get?_eq_some_iff k a).1 ha
    exact ⟨a, List.mem_of_getElem? hn, hname⟩
  · intro ha
    obtain ⟨a, hmem, hname⟩ := ha
    obtain ⟨n, hn⟩ := List.mem_iff_getElem?.1 hmem
    exact ⟨_, (h name (s.allotment.key n)).2 ⟨a, (s.get?_eq_some_iff _ a).2 ⟨n, rfl, hn⟩, hname⟩⟩

/-- In a consistent store, no two records have one name. -/
theorem Consistent.nodup (h : s.Consistent nameOf) : (s.records.map nameOf).Nodup := by
  rw [List.nodup_iff_getElem?_ne_getElem?]
  intro m n hmn hn heq
  rw [List.length_map] at hn
  have hkey {i : Nat} (hi : i < s.records.length) :
      s.key? (nameOf s.records[i]) = some (s.allotment.key i) :=
    (h _ _).2 ⟨_, (s.get?_eq_some_iff _ _).2 ⟨i, rfl, List.getElem?_eq_getElem hi⟩, rfl⟩
  have hm : m < s.records.length := Nat.lt_trans hmn hn
  rw [List.getElem?_map, List.getElem?_map, List.getElem?_eq_getElem hm,
    List.getElem?_eq_getElem hn] at heq
  have hname : nameOf s.records[m] = nameOf s.records[n] := Option.some.inj heq
  have hsame := (hkey hm).symm.trans (hname ▸ hkey hn)
  exact absurd (s.allotment.injective m n (Option.some.inj hsame)) (Nat.ne_of_lt hmn)

/-- The store after records of new names were added to the base, and changed without renaming them. -/
structure Widens (nameOf : α → String) (base : Store τ α) (new : List String) (s : Store τ α) :
    Prop where
  allotment : s.allotment = base.allotment
  keys : ∀ name k, base.key? name = some k → s.key? name = some k
  taken : ∀ name, name ∈ s.taken ↔ name ∈ base.taken ∨ name ∈ new
  consistent : base.Consistent nameOf → s.Consistent nameOf

theorem widens_refl (nameOf : α → String) (s : Store τ α) : Widens nameOf s [] s where
  allotment := rfl
  keys _ _ h := h
  taken _ := by simp
  consistent h := h

theorem Widens.add {new : List String} (h : Widens nameOf base new s) {a : α}
    (ha : nameOf a ∉ s.taken) : Widens nameOf base (new ++ [nameOf a]) (s.add (nameOf a) a) where
  allotment := h.allotment
  keys name k hk := by
    have hold := h.keys name k hk
    have hne : nameOf a ≠ name := by
      rintro rfl
      exact ha ((s.mem_taken_iff _).2 (by rw [hold]; rfl))
    rw [key?_add, if_neg hne]
    exact hold
  taken name := by
    rw [mem_taken_add, h.taken, List.mem_append, List.mem_singleton, or_assoc]
  consistent hbase := (h.consistent hbase).add (key?_eq_none_of_not_mem ha)

theorem Widens.modify {new : List String} (h : Widens nameOf base new s) (k : Key τ)
    {change : α → α} (hchange : ∀ a, nameOf (change a) = nameOf a) :
    Widens nameOf base new (s.modify k change) where
  allotment := (s.allotment_modify k change).trans h.allotment
  keys name k' hk := (s.key?_modify k change name).trans (h.keys name k' hk)
  taken name := by
    rw [mem_taken_iff, key?_modify, ← mem_taken_iff]
    exact h.taken name
  consistent hbase := (h.consistent hbase).modify k hchange

/-- The store with something else kept of each record. -/
def map (f : α → β) (s : Store τ α) : Store τ β :=
  { allotment := s.allotment, records := s.records.map f, names := s.names }

theorem get?_map (f : α → β) (s : Store τ α) (k : Key τ) :
    (s.map f).get? k = (s.get? k).map f := by
  unfold get? position? map
  simp only [List.length_map, List.getElem?_map, Option.map_bind]
  rfl

theorem next_map (f : α → β) (s : Store τ α) : (s.map f).next = s.next :=
  congrArg s.allotment.key (List.length_map f)

theorem add_map (f : α → β) (s : Store τ α) (name : String) (a : α) :
    (s.add name a).map f = (s.map f).add name (f a) := by
  unfold map add next
  simp

/-- A change that nothing kept depends on. -/
theorem modify_map {f : α → β} {change : α → α} (h : ∀ a, f (change a) = f a) (s : Store τ α)
    (k : Key τ) : (s.modify k change).map f = s.map f := by
  unfold modify
  cases s.position? k with
  | none => rfl
  | some n =>
    unfold map
    rw [map_modify_of_eq h]

end Store

end FrameGraph
