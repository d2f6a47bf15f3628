namespace FrameGraph

/-- A counter in a word, which wraps. It remembers that it did: where arithmetic is checked, the program
would have stopped at that point. -/
@[ext] structure Counter where
  value : UInt32 := 0
  overflowed : Bool := false
  deriving DecidableEq, Repr

namespace Counter

def plus (c : Counter) (n : Nat) : Counter where
  value := .ofNat (c.value.toNat + n)
  overflowed := c.overflowed || decide (UInt32.size ≤ c.value.toNat + n)

def next (c : Counter) : Counter := c.plus 1

/-- The counter after as many steps. -/
def ofNat (n : Nat) : Counter := plus {} n

instance (n : Nat) : OfNat Counter n := ⟨ofNat n⟩

theorem toNat_plus (c : Counter) (n : Nat) :
    (c.plus n).value.toNat = (c.value.toNat + n) % UInt32.size :=
  UInt32.toNat_ofNat'

@[simp] theorem plus_zero (c : Counter) : c.plus 0 = c := by
  have hsmall : c.value.toNat < UInt32.size := c.value.toNat_lt
  have hnone : decide (UInt32.size ≤ c.value.toNat) = false := decide_eq_false (by omega)
  unfold plus
  rw [Nat.add_zero, UInt32.ofNat_toNat, hnone, Bool.or_false]

/-- A counter overflows on the way exactly if its sum is too large in the end. -/
theorem plus_plus (c : Counter) (m n : Nat) : (c.plus m).plus n = c.plus (m + n) := by
  have hoverflow : (UInt32.size ≤ c.value.toNat + m ∨
      UInt32.size ≤ (c.value.toNat + m) % UInt32.size + n) ↔
      UInt32.size ≤ c.value.toNat + (m + n) := by
    by_cases hm : UInt32.size ≤ c.value.toNat + m
    · simp only [hm, true_or, true_iff]
      omega
    · rw [Nat.mod_eq_of_lt (Nat.lt_of_not_le hm), Nat.add_assoc]
      simp only [hm, false_or]
  have hvalue : ((c.plus m).plus n).value = (c.plus (m + n)).value := by
    rw [← UInt32.toNat_inj, toNat_plus, toNat_plus, toNat_plus, Nat.mod_add_mod, Nat.add_assoc]
  have hflag : ((c.plus m).plus n).overflowed = (c.plus (m + n)).overflowed := by
    show ((c.overflowed || decide _) || decide (_ ≤ (c.plus m).value.toNat + n)) = _
    rw [toNat_plus, Bool.or_assoc, ← Bool.decide_or, decide_eq_decide.2 hoverflow]
    rfl
  exact Counter.ext hvalue hflag

@[simp] theorem next_plus (c : Counter) (n : Nat) : (c.plus n).next = c.plus (n + 1) :=
  plus_plus c n 1

@[simp] theorem next_ofNat (n : Nat) : (ofNat n).next = ofNat (n + 1) :=
  next_plus {} n

@[simp] theorem plus_ofNat (m n : Nat) : (ofNat m).plus n = ofNat (m + n) :=
  plus_plus {} m n

/-- The counter stands at the number and has not wrapped on the way there. -/
structure Counts (c : Counter) (n : Nat) : Prop where
  value : c.value.toNat = n
  overflowed : c.overflowed = false

theorem counts_ofNat {n : Nat} (h : n < UInt32.size) : (ofNat n).Counts n where
  value := by
    show (UInt32.ofNat (0 + n)).toNat = n
    rw [Nat.zero_add, UInt32.toNat_ofNat_of_lt' h]
  overflowed := by
    show decide (UInt32.size ≤ 0 + n) = false
    rw [Nat.zero_add]
    exact decide_eq_false (Nat.not_le.2 h)

end Counter

end FrameGraph
