import FrameGraph.Proofs.Template
import Mathlib.Algebra.GroupWithZero.Nat

namespace FrameGraph.Template

variable {digits digits' p s : List Char} {ps qs : List (List Char)}

/-- The pieces of a text between its tokens; each is cut off at the leftmost token of what is left. -/
@[mk_iff]
inductive Pieces : List Char → List (List Char) → Prop where
  | whole {s : List Char} (h : ¬token <:+: s) : Pieces s [s]
  | cut {p s : List Char} {ps : List (List Char)}
    (hfirst : ∀ q, q ++ token <+: p ++ (token ++ s) → p.length ≤ q.length) (h : Pieces s ps) :
    Pieces (p ++ (token ++ s)) (p :: ps)

/-- A text with a token has a leftmost one. -/
theorem exists_leftmost (h : token <:+: s) :
    ∃ p rest, s = p ++ (token ++ rest) ∧ ∀ q, q ++ token <+: s → p.length ≤ q.length := by
  induction s with
  | nil => exact absurd h (by decide)
  | cons c s ih =>
    by_cases hstart : token <+: c :: s
    · obtain ⟨rest, hrest⟩ := hstart
      exact ⟨[], rest, hrest.symm, fun q _ => Nat.zero_le _⟩
    · have hlater : token <:+: s := (List.infix_cons_iff.1 h).resolve_left hstart
      obtain ⟨p, rest, rfl, hfirst⟩ := ih hlater
      refine ⟨c :: p, rest, rfl, fun q hq => ?_⟩
      cases q with
      | nil => exact absurd hq hstart
      | cons d q => exact Nat.succ_le_succ (hfirst q (List.cons_prefix_cons.1 hq).2)

theorem exists_pieces (s : List Char) : ∃ ps, Pieces s ps := by
  by_cases h : token <:+: s
  · obtain ⟨p, rest, heq, hfirst⟩ := exists_leftmost h
    have hshorter : rest.length < s.length := by
      rw [heq, List.length_append, List.length_append]
      exact Nat.lt_add_left _ (Nat.lt_add_of_pos_left (by decide))
    obtain ⟨ps, hps⟩ := exists_pieces rest
    subst heq
    exact ⟨p :: ps, .cut hfirst hps⟩
  · exact ⟨[s], .whole h⟩
termination_by s.length

theorem Pieces.ne_nil (h : Pieces s ps) : ps ≠ [] := by
  cases h <;> exact List.cons_ne_nil _ _

/-- There is one way to cut a text. -/
theorem Pieces.unique (hp : Pieces s ps) (hq : Pieces s qs) : ps = qs := by
  induction hp generalizing qs with
  | whole h =>
    rcases (pieces_iff _ _).1 hq with ⟨-, rfl⟩ | ⟨p, s, qs, -, -, rfl, rfl⟩
    · rfl
    · exact absurd (List.infix_append' p token s) h
  | @cut p s ps hfirst h ih =>
    rcases (pieces_iff _ _).1 hq with ⟨hnone, -⟩ | ⟨p', s', qs, hfirst', hqs, heq, rfl⟩
    · exact absurd (List.infix_append' p token s) hnone
    · -- each of the two tokens is leftmost, so they start at one place
      have hlength : p.length = p'.length := by
        have hle := hfirst p' (by rw [heq, ← List.append_assoc]; exact List.prefix_append _ _)
        have hge := hfirst' p (by rw [← heq, ← List.append_assoc]; exact List.prefix_append _ _)
        omega
      obtain ⟨rfl, hrest⟩ := List.append_inj heq hlength
      rw [ih ((List.append_cancel_left hrest) ▸ hqs)]

theorem replace_cons {c : Char} (h : ¬token <+: c :: s) :
    replace digits (c :: s) = c :: replace digits s := by
  rw [replace]
  rintro rest rfl rfl
  exact h (List.prefix_append token rest)

/-- What stands before the leftmost token stays as it is. -/
theorem replace_leftmost (hfirst : ∀ q, q ++ token <+: p ++ (token ++ s) → p.length ≤ q.length) :
    replace digits (p ++ (token ++ s)) = p ++ (digits ++ replace digits s) := by
  induction p with
  | nil => exact replace_token digits s
  | cons c p ih =>
    have hstart : ¬token <+: c :: (p ++ (token ++ s)) := fun h => by simpa using hfirst [] h
    have hlater : ∀ q, q ++ token <+: p ++ (token ++ s) → p.length ≤ q.length := fun q hq =>
      Nat.le_of_succ_le_succ (hfirst (c :: q) (List.cons_prefix_cons.2 ⟨rfl, hq⟩))
    rw [List.cons_append, replace_cons hstart, ih hlater, List.cons_append]

theorem Pieces.replace_eq (h : Pieces s ps) (digits : List Char) :
    replace digits s = digits.intercalate ps := by
  induction h with
  | whole h => rw [replace_eq_self h, List.intercalate_singleton]
  | cut hfirst h ih =>
    rw [replace_leftmost hfirst, ih, List.intercalate_cons_of_ne_nil h.ne_nil, List.append_assoc]

/-- A text is its own only piece exactly if it has no token. -/
theorem pieces_self_iff : Pieces s [s] ↔ ¬token <:+: s := by
  constructor
  · intro h
    rcases (pieces_iff _ _).1 h with ⟨hnone, -⟩ | ⟨p, rest, ps, -, hps, -, heq⟩
    · exact hnone
    · exact absurd (List.cons.inj heq).2.symm hps.ne_nil
  · exact Pieces.whole

theorem expand_eq_self_iff {t : String} {n : UInt32} : expand t n = t ↔ ¬HasToken t := by
  constructor
  · intro h
    exact h ▸ not_hasToken_expand t n
  · intro h
    exact expand_of_not_hasToken h n

/-- The name at an iteration holds no token, so that expanding it again changes nothing. It consists of
the pieces of the template with the decimal digits of the iteration between them, which is the template
itself exactly if it holds no token. -/
theorem expand_fills_pieces (t : String) (n : UInt32) :
    ¬HasToken (expand t n) ∧ (∀ m, expand (expand t n) m = expand t n) ∧
      (∃ ps, (∀ qs, Pieces t.toList qs ↔ qs = ps) ∧
        (expand t n).toList = (toString n).toList.intercalate ps) ∧
      (Pieces t.toList [t.toList] ↔ ¬HasToken t) ∧ (expand t n = t ↔ ¬HasToken t) := by
  have hnone := not_hasToken_expand t n
  obtain ⟨ps, hps⟩ := exists_pieces t.toList
  refine ⟨hnone, fun m => expand_eq_self_iff.2 hnone, ⟨ps, fun qs => ?_, ?_⟩, pieces_self_iff,
    expand_eq_self_iff⟩
  · exact ⟨fun hqs => hqs.unique hps, fun hqs => hqs ▸ hps⟩
  · have hdigits : (toString n).toList = Nat.toDigits 10 n.toNat := Nat.toList_repr
    rw [expand, String.toList_ofList, hps.replace_eq, hdigits]

example : expand "$${i}{i}${${i}}" 10 = "$10{i}${10}" := by decide +kernel

theorem length_intercalate (d : List Char) (ps : List (List Char)) :
    (d.intercalate ps).length = (ps.map List.length).sum + (ps.length - 1) * d.length := by
  induction ps with
  | nil => simp
  | cons p ps ih =>
    cases ps with
    | nil => simp
    | cons q ps =>
      simp only [List.intercalate_cons_cons, List.length_append, ih, List.map_cons, List.sum_cons,
        List.length_cons, Nat.add_sub_cancel, Nat.succ_mul]
      omega

/-- Texts made of the same pieces, of which there are two or more, have the same between them. -/
theorem intercalate_injective (hps : ps ≠ [])
    (h : digits.intercalate (p :: ps) = digits'.intercalate (p :: ps)) : digits = digits' := by
  have hpos : 0 < ps.length := List.length_pos_iff.2 hps
  have hlength : digits.length = digits'.length := by
    have hlengths := congrArg List.length h
    rw [length_intercalate, length_intercalate, List.length_cons, Nat.add_sub_cancel] at hlengths
    exact Nat.eq_of_mul_eq_mul_left hpos (Nat.add_left_cancel hlengths)
  rw [List.intercalate_cons_of_ne_nil hps, List.intercalate_cons_of_ne_nil hps, List.append_assoc,
    List.append_assoc] at h
  exact (List.append_inj (List.append_cancel_left h) hlength).1

theorem toDigits_injective {m n : Nat} (h : Nat.toDigits 10 m = Nat.toDigits 10 n) : m = n := by
  have hread := congrArg (fun ds => Nat.ofDigitChars 10 ds 0) h
  simpa using hread

/-- The names of a template with the token tell its iterations apart. -/
theorem expand_injective {t : String} (ht : HasToken t) {m n : UInt32}
    (h : expand t m = expand t n) : m = n := by
  obtain ⟨ps, hps⟩ := exists_pieces t.toList
  rcases (pieces_iff _ _).1 hps with ⟨hnone, -⟩ | ⟨p, s, ps, -, htail, -, rfl⟩
  · exact absurd ht hnone
  · have hlists := congrArg String.toList h
    rw [expand, expand, String.toList_ofList, String.toList_ofList, hps.replace_eq,
      hps.replace_eq] at hlists
    exact UInt32.toNat_inj.1 (toDigits_injective (intercalate_injective htail.ne_nil hlists))

end FrameGraph.Template
