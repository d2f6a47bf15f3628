import FrameGraph.Number.Single

namespace FrameGraph

/-- A number without sign, point and exponent that fits 64 bits is a natural; any other one is a finite
number of double width. -/
inductive Json where
  | null
  | boolean (value : Bool)
  | natural (value : UInt64)
  | real (value : Double)
  | text (value : String)
  | array (items : List Json)
  | object (fields : List (String × Json))

namespace Json

/-- A way of parsing texts: the document of a text, or a message that says why there is none. -/
abbrev Parser := String → Except String Json

/-- The name of a value's kind, with its article. -/
def kind : Json → String
  | null => "null"
  | boolean _ => "a boolean"
  | natural _ => "a number"
  | real _ => "a number"
  | text _ => "a string"
  | array _ => "an array"
  | object _ => "an object"

def isNull : Json → Bool
  | null => true
  | _ => false

def isNumber : Json → Bool
  | natural _ => true
  | real _ => true
  | _ => false

/-- The number of single width that a number stands for: the nearest to its value in double width. -/
def single? : Json → Option Single
  | natural n => some (.ofNat n.toNat)
  | real x => some (.ofDouble x)
  | _ => none

/-- The value of a field that is there and is not null. -/
def present? (fields : List (String × Json)) (key : String) : Option Json :=
  (fields.find? fun f => f.1 == key && !f.2.isNull).map Prod.snd

/-- The fields with one added, which takes the place of an earlier one of its name. -/
def put (fields : List (String × Json)) (key : String) (value : Json) : List (String × Json) :=
  if fields.any (·.1 == key) then
    fields.map fun f => if f.1 == key then (key, value) else f
  else fields ++ [(key, value)]

theorem isNumber_iff_single? (j : Json) : j.isNumber = j.single?.isSome := by
  cases j <;> rfl

theorem present?_put_self (fields : List (String × Json)) (key : String) {v : Json}
    (h : v.isNull = false) : present? (put fields key v) key = some v := by
  unfold put present?
  by_cases hany : fields.any (·.1 == key) = true
  · obtain ⟨f, hf⟩ := Option.isSome_iff_exists.1 (List.find?_isSome.2 (List.any_eq_true.1 hany))
    have htest : (fun f => f.1 == key && !f.2.isNull) ∘
        (fun f => if f.1 == key then (key, v) else f) = fun f => f.1 == key := by
      funext f
      by_cases hf : f.1 = key <;> simp [hf, h]
    have hkey := List.find?_some hf
    simp only [hany, if_true, List.find?_map, htest, hf, Option.map_some, hkey]
  · have hnone : (fields.find? fun f => f.1 == key && !f.2.isNull) = none := by
      rw [List.find?_eq_none]
      intro f hf ht
      exact hany (List.any_eq_true.2 ⟨f, hf, (Bool.and_eq_true_iff.1 ht).1⟩)
    simp [hany, List.find?_append, hnone, h]

/-- The other fields stay as they are. -/
theorem present?_put_of_ne (fields : List (String × Json)) {key other : String} (h : key ≠ other)
    (v : Json) : present? (put fields key v) other = present? fields other := by
  unfold put present?
  by_cases hany : fields.any (·.1 == key) = true
  · have htest : (fun f => f.1 == other && !f.2.isNull) ∘
        (fun f => if f.1 == key then (key, v) else f) = fun f => f.1 == other && !f.2.isNull := by
      funext f
      by_cases hf : f.1 = key
      · have hother : (key == other) = false := beq_false_of_ne h
        simp [hf, hother]
      · simp [hf]
    simp only [hany, if_true, List.find?_map, htest, Option.map_map]
    refine Option.map_congr fun f hf => ?_
    have hfound := List.find?_some hf
    obtain ⟨hother, -⟩ : f.1 = other ∧ f.2.isNull = false := by simpa using hfound
    have hkey : f.1 ≠ key := fun hkey => h (hkey.symm.trans hother)
    simp [hkey]
  · simp [hany, List.find?_append, h]

end Json

end FrameGraph
