import FrameGraph.Number.Single
import Mathlib.Tactic.Ring

namespace FrameGraph

namespace BinaryFormat

/-- A significand and the power of two that it is scaled by, as a finite code holds them. Only the least
power goes with a significand below the leading bit. -/
structure Normal (F : BinaryFormat) (k w : Nat) : Prop where
  lt : w < 2 * 2 ^ F.fraction
  le : k = 0 ∨ 2 ^ F.fraction ≤ w

variable {F : BinaryFormat} {k w : Nat}

/-- The magnitude of a code, from the parts that the code is the sum of. -/
theorem Normal.units_eq (h : F.Normal k w) : F.units (k * 2 ^ F.fraction + w) = w * 2 ^ k := by
  have hpos : 0 < 2 ^ F.fraction := Nat.two_pow_pos _
  have hlt := h.lt
  unfold units
  simp only [Nat.shiftRight_eq_div_pow, Nat.shiftLeft_eq, one_mul]
  rw [Nat.mul_comm k, Nat.mul_add_div hpos]
  rcases Nat.lt_or_ge w (2 ^ F.fraction) with hw | hw
  · have hk : k = 0 := h.le.resolve_right (Nat.not_le.2 hw)
    simp [hk, Nat.div_eq_of_lt hw]
  · have hdiv : w / 2 ^ F.fraction = 1 := Nat.div_eq_of_lt_le (by omega) (by omega)
    rw [hdiv, if_neg (Nat.succ_ne_zero k), Nat.add_sub_cancel]
    congr 1
    rw [Nat.add_mul, one_mul, Nat.mul_comm k]
    omega

theorem exists_normal (F : BinaryFormat) (code : Nat) :
    ∃ k w, F.Normal k w ∧ code = k * 2 ^ F.fraction + w := by
  have hpos : 0 < 2 ^ F.fraction := Nat.two_pow_pos _
  have hsplit := Nat.div_add_mod' code (2 ^ F.fraction)
  have hmod := Nat.mod_lt code hpos
  cases he : code / 2 ^ F.fraction with
  | zero =>
    rw [he, Nat.zero_mul, Nat.zero_add] at hsplit
    exact ⟨0, code, ⟨by omega, .inl rfl⟩, by simp⟩
  | succ e =>
    rw [he, Nat.add_mul, one_mul] at hsplit
    exact ⟨e, 2 ^ F.fraction + code % 2 ^ F.fraction, ⟨by omega, .inr (by omega)⟩, by omega⟩

/-- The binade of a magnitude is told by its leading bit. -/
theorem Normal.log2_sub (h : F.Normal k w) : (w * 2 ^ k).log2 - F.fraction = k := by
  have hlt := h.lt
  rw [← Nat.pow_succ'] at hlt
  by_cases hw : w = 0
  · have hk : k = 0 := h.le.resolve_right (by have := Nat.two_pow_pos F.fraction; omega)
    simp [hw, hk, Nat.log2_zero]
  · have hlog : (w * 2 ^ k).log2 = w.log2 + k := by
      rw [Nat.log2_eq_iff (Nat.mul_ne_zero hw (Nat.two_pow_pos k).ne')]
      constructor
      · rw [Nat.pow_add]
        exact Nat.mul_le_mul_right _ (Nat.log2_self_le hw)
      · rw [Nat.add_right_comm, Nat.pow_add]
        exact Nat.mul_lt_mul_of_pos_right Nat.lt_log2_self (Nat.two_pow_pos k)
    have hle : w.log2 < F.fraction + 1 := (Nat.log2_lt hw).2 hlt
    rw [hlog]
    rcases h.le with hk | hlead
    · omega
    · have := (Nat.le_log2 hw).2 hlead
      omega

theorem nearest_mul_self {d : Nat} (hd : 0 < d) (q : Nat) : nearest (q * d) d = q := by
  unfold nearest
  simp [Nat.mul_div_cancel q hd, hd]

/-- A quotient that is a magnitude is rounded to the code of it. -/
theorem Normal.round_eq (h : F.Normal k w) {n d : Nat} (hd : 0 < d)
    (hn : n * 2 ^ F.scale = w * 2 ^ k * d) :
    F.round n d = min F.infinity (k * 2 ^ F.fraction + w) := by
  have hpow : w * 2 ^ k * d = w * (d * 2 ^ k) := by ring
  unfold round
  simp only [Nat.shiftLeft_eq]
  rw [hn, Nat.mul_div_cancel _ hd, h.log2_sub, hpow,
    nearest_mul_self (Nat.mul_pos hd (Nat.two_pow_pos k))]

/-- A format with more fraction and a finer unit has a form of the same magnitude. The significand is
moved up until its leading bit is where the finer format wants it. -/
theorem Normal.exists_finer (h : F.Normal k w) {G : BinaryFormat} {j : Nat}
    (hfraction : F.fraction ≤ G.fraction) (hj : G.fraction ≤ j) :
    ∃ k' w', G.Normal k' w' ∧ w' * 2 ^ k' = w * 2 ^ k * 2 ^ j ∧
      k' + G.fraction ≤ k + j + F.fraction := by
  have hlt := h.lt
  rw [← Nat.pow_succ'] at hlt
  by_cases hw : w = 0
  · refine ⟨0, 0, ⟨by have := Nat.two_pow_pos G.fraction; omega, .inl rfl⟩, by simp [hw], ?_⟩
    omega
  · have hlog : w.log2 < F.fraction + 1 := (Nat.log2_lt hw).2 hlt
    obtain ⟨up, hup⟩ := Nat.exists_eq_add_of_le (show w.log2 ≤ G.fraction by omega)
    have hlow := Nat.mul_le_mul_right (2 ^ up) (Nat.log2_self_le hw)
    have hhigh := Nat.mul_lt_mul_of_pos_right (Nat.lt_log2_self (n := w)) (Nat.two_pow_pos up)
    rw [← Nat.pow_add] at hlow hhigh
    refine ⟨k + j - up, w * 2 ^ up, ⟨?_, .inr (hup ▸ hlow)⟩, ?_, by omega⟩
    · rw [← Nat.pow_succ', hup, Nat.succ_eq_add_one, Nat.add_right_comm]
      exact hhigh
    · rw [Nat.mul_assoc, Nat.mul_assoc, ← Nat.pow_add, ← Nat.pow_add]
      congr 2
      omega

theorem Normal.lt_infinity {e : Nat} (h : F.Normal k w) (hinf : F.infinity = e * 2 ^ F.fraction)
    (hk : k + 2 ≤ e) : k * 2 ^ F.fraction + w < F.infinity := by
  have hlt := h.lt
  have hmul := Nat.mul_le_mul_right (2 ^ F.fraction) hk
  rw [Nat.add_mul] at hmul
  rw [hinf]
  omega

/-- A finite code of single width comes back from double width as it was. -/
theorem convert_convert {code : Nat} (hcode : code < single.infinity) :
    single.convert .double code < double.infinity ∧
      double.convert .single (single.convert .double code) = code := by
  obtain ⟨k, w, h, rfl⟩ := exists_normal single code
  have hgap : double.scale - single.scale = 925 := by decide
  have hfractions : single.fraction = 23 ∧ double.fraction = 52 := ⟨rfl, rfl⟩
  obtain ⟨k', w', h', hvalue, hk'⟩ :=
    h.exists_finer (G := double) (j := double.scale - single.scale) (by decide) (by decide)
  have hscale : 2 ^ double.scale = 2 ^ (double.scale - single.scale) * 2 ^ single.scale := by
    rw [← Nat.pow_add, Nat.sub_add_cancel (by decide)]
  have hk : k < 255 := by
    have hinf : single.infinity = 255 * 2 ^ single.fraction := by decide
    rw [hinf] at hcode
    exact Nat.lt_of_mul_lt_mul_right (Nat.lt_of_le_of_lt (Nat.le_add_right _ w) hcode)
  have hfinite : k' * 2 ^ double.fraction + w' < double.infinity :=
    h'.lt_infinity (e := 2047) (by decide) (by omega)
  have hexact : w * 2 ^ k * 2 ^ double.scale = w' * 2 ^ k' * 2 ^ single.scale := by
    rw [hvalue, hscale]
    ring
  have hup : single.convert .double (k * 2 ^ single.fraction + w) =
      k' * 2 ^ double.fraction + w' := by
    unfold convert
    rw [if_pos hcode, h.units_eq, Nat.shiftLeft_eq, one_mul,
      h'.round_eq (Nat.two_pow_pos _) hexact, Nat.min_eq_right hfinite.le]
  have hdown : double.convert .single (k' * 2 ^ double.fraction + w') =
      k * 2 ^ single.fraction + w := by
    unfold convert
    rw [if_pos hfinite, h'.units_eq, Nat.shiftLeft_eq, one_mul,
      h.round_eq (Nat.two_pow_pos _) hexact.symm, Nat.min_eq_right hcode.le]
  rw [hup]
  exact ⟨hfinite, hdown⟩

end BinaryFormat

namespace Single

open BinaryFormat

/-- A double that is nearest to the number: the one of the same value, and the greatest one for
infinity. -/
def widened (x : Single) : Double where
  negative := x.negative
  code := min (single.convert .double x.code) (double.infinity - 1)
  isLt := Nat.lt_of_le_of_lt (Nat.min_le_right ..) (by decide)

theorem ofDouble_widened {x : Single} (h : x.isNaN = false) : ofDouble x.widened = x := by
  obtain ⟨negative, code, isLt⟩ := x
  have hle : code ≤ single.infinity := Nat.not_lt.1 (of_decide_eq_false h)
  have hcode : min (double.convert .single
      (min (single.convert .double code) (double.infinity - 1))) single.infinity = code := by
    rcases Nat.lt_or_eq_of_le hle with hlt | rfl
    · obtain ⟨hfinite, hback⟩ := convert_convert hlt
      rw [Nat.min_eq_left (Nat.le_sub_one_of_lt hfinite), hback, Nat.min_eq_left hle]
    · decide +kernel
  simpa [ofDouble, ofCode, widened] using hcode

end Single

end FrameGraph
