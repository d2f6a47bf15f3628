import FrameGraph.Table
import Mathlib.Data.List.Induction
import Mathlib.Data.List.Nodup

namespace FrameGraph

/-- The table has each name at its position, and no other name. -/
def Tabulates (table : Table Nat) (names : List String) : Prop :=
  ∀ (name : String) (i : Nat), table[name]? = some i ↔ names[i]? = some name

namespace Tabulates

variable {table : Table Nat} {names : List String} {name : String} {i : Nat}

theorem lt_length (h : Tabulates table names) (hi : table[name]? = some i) : i < names.length := by
  obtain ⟨hlt, -⟩ := List.getElem?_eq_some_iff.1 ((h name i).1 hi)
  exact hlt

/-- The names leave no choice of the table. -/
theorem unique {s t : Table Nat} (hs : Tabulates s names) (ht : Tabulates t names) : s = t :=
  Table.ext fun name => Option.ext fun i => (hs name i).trans (ht name i).symm

theorem getElem?_eq_none_iff (h : Tabulates table names) : table[name]? = none ↔ name ∉ names := by
  rw [List.mem_iff_getElem?, Option.eq_none_iff_forall_ne_some, not_exists]
  exact forall_congr' fun i => not_congr (h name i)

/-- A name has one position in the table, and so in the list. -/
theorem nodup (h : Tabulates table names) : names.Nodup := by
  rw [List.nodup_iff_getElem?_ne_getElem?]
  intro i j hij hj hsame
  have hat : names[j]? = some names[j] := List.getElem?_eq_getElem hj
  have hi := (h names[j] i).2 (hsame.trans hat)
  have hj := (h names[j] j).2 hat
  exact absurd (Option.some.inj (hi.symm.trans hj)) (Nat.ne_of_lt hij)

theorem empty : Tabulates ∅ [] := by
  intro name i
  simp

/-- One more name goes to the end. -/
theorem insert (h : Tabulates table names) (hname : name ∉ names) :
    Tabulates (table.insert name names.length) (names ++ [name]) := by
  intro n i
  rw [Table.getElem?_insert, List.getElem?_append]
  by_cases hn : name = n
  · subst hn
    rw [if_pos rfl]
    by_cases hlt : i < names.length
    · have hno : names[i]? ≠ some name := fun hi => hname (List.mem_of_getElem? hi)
      rw [if_pos hlt]
      exact iff_of_false (fun hi => Nat.ne_of_gt hlt (Option.some.inj hi)) hno
    · rw [if_neg hlt, List.getElem?_singleton]
      by_cases heq : i - names.length = 0
      · have hi : names.length = i := by omega
        simp [hi]
      · have hi : names.length ≠ i := by omega
        simp [heq, hi]
  · rw [if_neg hn, h n i]
    by_cases hlt : i < names.length
    · rw [if_pos hlt]
    · rw [if_neg hlt, List.getElem?_singleton, List.getElem?_eq_none (Nat.not_lt.1 hlt)]
      simp [hn]

/-- What stands at the position of a name is what has the name. -/
theorem bind_getElem?_eq_some_iff {α : Type} {nameOf : α → String} {as : List α}
    (h : Tabulates table (as.map nameOf)) {a : α} :
    table[name]?.bind (as[·]?) = some a ↔ a ∈ as ∧ nameOf a = name := by
  have hname (i : Nat) : table[name]? = some i ↔ as[i]?.map nameOf = some name := by
    rw [← List.getElem?_map]
    exact h name i
  rw [Option.bind_eq_some_iff]
  constructor
  · intro hfound
    obtain ⟨i, hi, ha⟩ := hfound
    have hnamed := (hname i).1 hi
    rw [ha] at hnamed
    exact ⟨List.mem_of_getElem? ha, Option.some.inj hnamed⟩
  · intro hmem
    obtain ⟨ha, rfl⟩ := hmem
    obtain ⟨i, hi⟩ := List.mem_iff_getElem?.1 ha
    refine ⟨i, (hname i).2 ?_, hi⟩
    rw [hi]
    rfl

end Tabulates

/-- The positions of names in a list. -/
def Table.positions (names : List String) : Table Nat :=
  names.zipIdx.foldl (fun t x => t.insert x.1 x.2) ∅

theorem tabulates_positions {names : List String} (h : names.Nodup) :
    Tabulates (.positions names) names := by
  induction names using List.reverseRecOn with
  | nil => exact .empty
  | append_singleton names name ih =>
    rw [← List.concat_eq_append, List.nodup_concat] at h
    have hadd : Table.positions (names ++ [name]) =
        (Table.positions names).insert name names.length := by
      simp [Table.positions, List.zipIdx_append]
    rw [hadd]
    exact (ih h.2).insert h.1

end FrameGraph
