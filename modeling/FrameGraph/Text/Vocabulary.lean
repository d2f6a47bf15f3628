import FrameGraph.Text.Blank

namespace FrameGraph.Text

/-- The characters with ASCII capitals made small, and all others kept. -/
def folded (s : String) : List Char := s.toList.map Char.toLower

/-- Equality up to the case of ASCII letters. -/
def sameFolded (a b : String) : Bool := folded a == folded b

/-- The text with small ASCII letters made capital, and all other characters kept. -/
def capitals (s : String) : String := String.ofList (s.toList.map Char.toUpper)

/-- The words of one kind and what each stands for; `noun` names the kind in messages. -/
structure Vocabulary (α : Type) where
  noun : String
  words : List (String × α)

/-- The value of the first word that the text spells, once trimmed and folded. -/
def Vocabulary.find? {α : Type} (v : Vocabulary α) (text : String) : Option α :=
  (v.words.find? fun w => sameFolded w.1 (trimmed text)).map Prod.snd

theorem toLower_toUpper (c : Char) : c.toUpper.toLower = c.toLower := by
  unfold Char.toLower Char.toUpper
  by_cases h : 'a'.val ≤ c.val ∧ c.val ≤ 'z'.val
  · have hcapital : ¬(c.val ≥ 'A'.val ∧ c.val ≤ 'Z'.val) := by grind
    have hmade : c.val + ('A'.val - 'a'.val) ≥ 'A'.val ∧ c.val + ('A'.val - 'a'.val) ≤ 'Z'.val := by
      grind
    rw [dif_pos h, dif_pos hmade, dif_neg hcapital]
    apply Char.ext
    simp [UInt32.add_assoc]
  · rw [dif_neg h]

theorem toUpper_toLower (c : Char) : c.toLower.toUpper = c.toUpper := by
  unfold Char.toLower Char.toUpper
  by_cases h : c.val ≥ 'A'.val ∧ c.val ≤ 'Z'.val
  · have hsmall : ¬('a'.val ≤ c.val ∧ c.val ≤ 'z'.val) := by grind
    have hmade : 'a'.val ≤ c.val + ('a'.val - 'A'.val) ∧ c.val + ('a'.val - 'A'.val) ≤ 'z'.val := by
      grind
    rw [dif_pos h, dif_pos hmade, dif_neg hsmall]
    apply Char.ext
    simp [UInt32.add_assoc]
  · rw [dif_neg h]

/-- Texts that are the same up to the case of ASCII letters have the same capitals. -/
theorem capitals_congr {a b : String} (h : folded a = folded b) : capitals a = capitals b := by
  have hcapitals (s : String) : capitals s = String.ofList ((folded s).map Char.toUpper) := by
    unfold capitals folded
    rw [List.map_map]
    exact congrArg String.ofList (List.map_congr_left fun c _ => (toUpper_toLower c).symm)
  rw [hcapitals a, hcapitals b, h]

theorem folded_capitals (s : String) : folded (capitals s) = folded s := by
  unfold capitals folded
  rw [String.toList_ofList, List.map_map]
  exact List.map_congr_left fun c _ => toLower_toUpper c

theorem sameFolded_iff {a b : String} : sameFolded a b = true ↔ folded a = folded b := by
  simp [sameFolded]

theorem sameFolded_congr {a b : String} (h : folded a = folded b) (w : String) :
    sameFolded a w = sameFolded b w := by
  rw [sameFolded, sameFolded, h]

/-- A reading depends on the trimmed text up to the case of ASCII letters and on nothing else. -/
theorem Vocabulary.find?_congr {α : Type} (v : Vocabulary α) {a b : String}
    (h : folded (trimmed a) = folded (trimmed b)) : v.find? a = v.find? b := by
  simp [Vocabulary.find?, sameFolded, h]

end FrameGraph.Text
