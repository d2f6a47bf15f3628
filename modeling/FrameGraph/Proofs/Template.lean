import FrameGraph.Template
import Mathlib.Data.List.Infix

namespace FrameGraph.Template

variable {digits s w : List Char}

/-- The template holds the token. -/
def HasToken (template : String) : Prop := token <:+: template.toList

instance (template : String) : Decidable (HasToken template) :=
  inferInstanceAs (Decidable (token <:+: template.toList))

/-- No character of the token is among the digits, of which there is at least one. -/
structure Apart (digits : List Char) : Prop where
  ne_nil : digits ≠ []
  not_mem : ∀ c ∈ token, c ∉ digits

theorem apart_toDigits (n : Nat) : Apart (Nat.toDigits 10 n) := by
  refine ⟨List.ne_nil_of_length_pos Nat.length_toDigits_pos, ?_⟩
  intro c hc hmem
  have hdigit := Nat.isDigit_of_mem_toDigits (by decide) (by decide) hmem
  have hnone : ∀ c ∈ token, c.isDigit = false := by simp [token, Char.isDigit]
  exact absurd hdigit (by simp [hnone c hc])

theorem replace_eq_self (h : ¬token <:+: s) : replace digits s = s := by
  induction s using replace.induct with
  | case1 => rfl
  | case2 s ih => exact absurd (List.prefix_append token s).isInfix h
  | case3 c s hne ih =>
    rw [replace, ih fun hs => h (List.infix_cons hs)]
    exact hne

/-- What starts the text with digits put in, and holds no digit, starts the text. -/
theorem prefix_of_prefix_replace (hd : digits ≠ []) (hw : ∀ c ∈ w, c ∉ digits)
    (h : w <+: replace digits s) : w <+: s := by
  induction s using replace.induct generalizing w with
  | case1 => exact h
  | case2 s ih =>
    obtain ⟨d, ds, rfl⟩ := List.exists_cons_of_ne_nil hd
    cases w with
    | nil => exact List.nil_prefix
    | cons a w =>
      have ha : a = d := (List.cons_prefix_cons.1 h).1
      exact absurd (ha ▸ List.mem_cons_self) (hw a List.mem_cons_self)
  | case3 c s hne ih =>
    rw [replace] at h
    · cases w with
      | nil => exact List.nil_prefix
      | cons a w =>
        obtain ⟨rfl, hrest⟩ := List.cons_prefix_cons.1 h
        exact List.cons_prefix_cons.2 ⟨rfl, ih (fun c hc => hw c (List.mem_cons_of_mem _ hc)) hrest⟩
    · exact hne

theorem not_infix_append (hd : ∀ c ∈ token, c ∉ digits) (h : ¬token <:+: s) :
    ¬token <:+: digits ++ s := by
  induction digits with
  | nil => exact h
  | cons d ds ih =>
    intro hinfix
    rcases List.infix_cons_iff.1 hinfix with hprefix | hrest
    · have hfirst : '$' = d := (List.cons_prefix_cons.1 hprefix).1
      exact hd '$' (by decide) (hfirst ▸ List.mem_cons_self)
    · exact ih (fun c hc hmem => hd c hc (List.mem_cons_of_mem _ hmem)) hrest

/-- Putting digits in place of the tokens leaves none and forms none. -/
theorem not_infix_replace (hd : Apart digits) (s : List Char) : ¬token <:+: replace digits s := by
  induction s using replace.induct with
  | case1 =>
    rw [replace]
    decide
  | case2 s ih => exact not_infix_append hd.not_mem ih
  | case3 c s hne ih =>
    rw [replace]
    · intro hinfix
      rcases List.infix_cons_iff.1 hinfix with hprefix | hrest
      · -- a token formed here would have its other three characters in the text itself
        obtain ⟨rfl, hlater⟩ := List.cons_prefix_cons.1 hprefix
        have htail : ['{', 'i', '}'] <+: s := prefix_of_prefix_replace hd.ne_nil
          (fun c hc => hd.not_mem c (List.mem_cons_of_mem _ hc)) hlater
        obtain ⟨rest, rfl⟩ := htail
        exact hne rest rfl rfl
      · exact ih hrest
    · exact hne

theorem expand_of_not_hasToken {template : String} (h : ¬HasToken template) (n : UInt32) :
    expand template n = template := by
  unfold expand
  rw [replace_eq_self h, String.ofList_toList]

theorem not_hasToken_expand (template : String) (n : UInt32) : ¬HasToken (expand template n) := by
  unfold HasToken expand
  rw [String.toList_ofList]
  exact not_infix_replace (apart_toDigits n.toNat) _

/-- Names that are equal only once expanded come from templates of which one holds the token. -/
theorem hasToken_of_expand_eq {s t : String} (hne : s ≠ t) {m n : UInt32}
    (h : expand s m = expand t n) : HasToken s ∨ HasToken t := by
  by_contra hneither
  rw [not_or] at hneither
  obtain ⟨hs, ht⟩ := hneither
  rw [expand_of_not_hasToken hs, expand_of_not_hasToken ht] at h
  exact hne h

end FrameGraph.Template
