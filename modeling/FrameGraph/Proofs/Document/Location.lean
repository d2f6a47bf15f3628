import FrameGraph.Proofs.Document.Reading

namespace FrameGraph.Document

open Text (Vocabulary)

/-- A walk from a value along a path, through fields that are not null and items that are there. -/
inductive Walks : Json → Path → Json → Prop where
  | done (j : Json) : Walks j [] j
  | field {o : Entries} {key : String} {v k : Json} {p : Path} (hv : Has o key v)
      (h : Walks v p k) : Walks (.object o) (.field key :: p) k
  | item {js : List Json} {i : Nat} {v k : Json} {p : Path} (hv : js[i]? = some v)
      (h : Walks v p k) : Walks (.array js) (.item i :: p) k

/-- One step from a value to one in it, which may be null. -/
inductive Reaches : Json → Step → Json → Prop where
  | field {o : Entries} {key : String} {v : Json} (hv : (key, v) ∈ o) :
      Reaches (.object o) (.field key) v
  | item {js : List Json} {i : Nat} {v : Json} (hv : js[i]? = some v) :
      Reaches (.array js) (.item i) v

/-- The step is a field that is absent from an object or null in it. -/
def Misses (j : Json) (s : Step) : Prop := ∃ o key, j = .object o ∧ s = .field key ∧ Lacks o key

/-- The step is at a value, or at a field that an object does not have. -/
def Ends (j : Json) (s : Step) : Prop :=
  (∃ v, Reaches j s v) ∨ ∃ o key, j = .object o ∧ s = .field key ∧ key ∉ o.map Prod.fst

theorem ends_field (o : Entries) (key : String) : Ends (.object o) (.field key) := by
  by_cases h : key ∈ o.map Prod.fst
  · obtain ⟨f, hf, rfl⟩ := List.mem_map.1 h
    exact .inl ⟨f.2, .field hf⟩
  · exact .inr ⟨o, key, rfl, rfl, h⟩

namespace Cause

/-- The cause is that a field is missing, whether or not the reason tells more. -/
def isMissing : Cause → Bool
  | missing => true
  | missingOfImage _ => true
  | _ => false

/-- The cause is in the value itself: it is not that a field is missing, nor that a list is too short
for a position. -/
def isPlain : Cause → Bool
  | missing | missingOfImage _ | outOfBounds .. => false
  | _ => true

theorem isPlain_of_isMissing {c : Cause} (h : c.isMissing = true) : c.isPlain = false := by
  cases c <;> first | rfl | exact absurd h nofun

/-- The reason alone tells whether a field is missing: no other one starts with the same letter. -/
theorem isMissing_of_reason {c : Cause} {suffix : String}
    (h : c.reason = "missing required field" ++ suffix) : c.isMissing = true := by
  have hfirst : c.reason.toList.head? = some 'm' := by simp [h]
  cases c with
  | missing => rfl
  | missingOfImage what => rfl
  | _ =>
    unfold reason at hfirst
    simp [toString] at hfirst

end Cause

/-- The fault is below a value at a path: some way along the value, a further step is blamed, for a plain
cause unless it is missing. -/
def Below (p : Path) (j : Json) (f : Fault) : Prop :=
  ∃ q s k, f.path = p ++ q ++ [s] ∧ Walks j q k ∧ Ends k s ∧
    (f.cause.isPlain = true ∨ f.cause.isMissing = true ∧ Misses k s)

/-- The fault is the value at a path itself, or it is below it. -/
def Within (p : Path) (j : Json) (f : Fault) : Prop :=
  (f.path = p ∧ f.cause.isPlain = true) ∨ Below p j f

section

variable {p : Path} {o : Entries} {key : String} {js : List Json} {i : Nat} {v : Json} {f : Fault}

theorem below_of_field (hv : Has o key v) (h : Within (p.field key) v f) : Below p (.object o) f := by
  rcases h with ⟨hpath, hcause⟩ | ⟨q, s, k, hpath, hwalk, hends, hcause⟩
  · refine ⟨[], .field key, .object o, ?_, .done _, ends_field o key, .inl hcause⟩
    simpa [Path.field] using hpath
  · refine ⟨.field key :: q, s, k, ?_, .field hv hwalk, hends, hcause⟩
    simpa [Path.field] using hpath

theorem below_of_item (hv : js[i]? = some v) (h : Within (p.item i) v f) : Below p (.array js) f := by
  rcases h with ⟨hpath, hcause⟩ | ⟨q, s, k, hpath, hwalk, hends, hcause⟩
  · refine ⟨[], .item i, .array js, ?_, .done _, .inl ⟨v, .item hv⟩, .inl hcause⟩
    simpa [Path.item] using hpath
  · refine ⟨.item i :: q, s, k, ?_, .item hv hwalk, hends, hcause⟩
    simpa [Path.item] using hpath

/-- A field may be blamed for any plain cause. -/
theorem below_field {c : Cause} (hc : c.isPlain = true) :
    Below p (.object o) ⟨p.field key, c⟩ := by
  refine ⟨[], .field key, .object o, ?_, .done _, ends_field o key, .inl hc⟩
  simp [Path.field]

/-- A field that is absent or null may be blamed for being missing. -/
theorem below_missing (h : Lacks o key) {c : Cause} (hc : c.isMissing = true) :
    Below p (.object o) ⟨p.field key, c⟩ := by
  refine ⟨[], .field key, .object o, ?_, .done _, ends_field o key, .inr ⟨hc, o, key, rfl, rfl, h⟩⟩
  simp [Path.field]

end

/-- Each fault that the result may be is as said. -/
def Blames {α : Type} (P : Fault → Prop) (x : Except Fault α) : Prop := ∀ f, x = .error f → P f

section

variable {α β : Type} {P Q : Fault → Prop}

theorem blames_ok (a : α) : Blames P (.ok a) := nofun

theorem blames_error {f : Fault} (h : P f) : Blames P (.error f : Except Fault α) := by
  intro g hg
  obtain rfl := Except.error.inj hg
  exact h

theorem Blames.mono {x : Except Fault α} (h : Blames P x) (hPQ : ∀ f, P f → Q f) : Blames Q x :=
  fun f hf => hPQ f (h f hf)

/-- What comes second is blamed only once the first has found nothing. -/
theorem Blames.bind {x : Except Fault α} {g : α → Except Fault β} (h : Blames P x)
    (hg : ∀ a, x = .ok a → Blames P (g a)) : Blames P (x >>= g) := by
  cases hx : x with
  | error f => exact blames_error (h f hx)
  | ok a => exact hg a hx

theorem Blames.map {x : Except Fault α} (h : Blames P x) (g : α → β) : Blames P (g <$> x) := by
  cases hx : x with
  | error f => exact blames_error (h f hx)
  | ok a => exact blames_ok (g a)

/-- A check blames what it finds, and what follows it blames the rest. -/
theorem Blames.check {c : Prop} [Decidable c] {f : Fault} {x : Except Fault α}
    {g : β → Except Fault α} (hf : c → P f) (hx : ¬c → Blames P x) :
    Blames P (if c then blame f >>= g else x) := by
  by_cases h : c
  · rw [if_pos h]
    exact blames_error (hf h)
  · rw [if_neg h]
    exact hx h

theorem Blames.ite {c : Prop} [Decidable c] {x y : Except Fault α} (hx : c → Blames P x)
    (hy : ¬c → Blames P y) : Blames P (if c then x else y) := by
  by_cases h : c
  · rw [if_pos h]
    exact hx h
  · rw [if_neg h]
    exact hy h

theorem blames_mapM {g : α → Except Fault β} {as : List α} (h : ∀ a ∈ as, Blames P (g a)) :
    Blames P (as.mapM g) := by
  induction as with
  | nil => exact blames_ok []
  | cons a as ih =>
    rw [List.mapM_cons]
    refine (h a (List.mem_cons_self ..)).bind fun b _ => ?_
    have hrest := ih fun a' ha' => h a' (List.mem_cons_of_mem _ ha')
    exact hrest.bind fun bs _ => blames_ok (b :: bs)

theorem blames_foldlM {g : β → α → Except Fault β} {as : List α}
    (h : ∀ a ∈ as, ∀ b, Blames P (g b a)) (b : β) : Blames P (as.foldlM g b) := by
  induction as generalizing b with
  | nil => exact blames_ok b
  | cons a as ih =>
    rw [List.foldlM_cons]
    refine (h a (List.mem_cons_self ..) b).bind fun b' _ => ?_
    exact ih (fun a' ha' => h a' (List.mem_cons_of_mem _ ha')) b'

theorem blames_forM {g : α → Except Fault Unit} {as : List α} (h : ∀ a ∈ as, Blames P (g a)) :
    Blames P (forM as g) := by
  induction as with
  | nil => exact blames_ok ()
  | cons a as ih =>
    rw [List.forM_cons]
    refine (h a (List.mem_cons_self ..)).bind fun _ _ => ?_
    exact ih fun a' ha' => h a' (List.mem_cons_of_mem _ ha')

end

/-- The reader blames the value that it reads, or something below it. -/
def Locates {α : Type} (read : Reader (Except Fault) α) : Prop := ∀ p j, Blames (Within p j) (read p j)

section

variable {α β : Type} {read : Reader (Except Fault) α} {p : Path} {j : Json}

/-- The value itself may be blamed for any plain cause. -/
theorem within_self {c : Cause} (hc : c.isPlain = true) : Within p j ⟨p, c⟩ := .inl ⟨rfl, hc⟩

theorem blames_self {c : Cause} (hc : c.isPlain = true) :
    Blames (Within p j) (.error ⟨p, c⟩ : Except Fault α) :=
  blames_error (within_self hc)

theorem locates_long : Locates Reader.long := by
  intro p j
  cases j with
  | natural n => exact blames_ok n
  | _ => exact blames_self rfl

theorem locates_word : Locates Reader.word := by
  intro p j
  refine (locates_long p j).bind fun n _ => ?_
  by_cases hn : n.toNat < UInt32.size
  · rw [if_pos hn]
    exact blames_ok _
  · rw [if_neg hn]
    exact blames_self rfl

theorem locates_text : Locates Reader.text := by
  intro p j
  cases j with
  | text s => exact blames_ok s
  | _ => exact blames_self rfl

theorem locates_single : Locates Reader.single := by
  intro p j
  unfold Reader.single
  cases j.single? with
  | some x => exact blames_ok x
  | none => exact blames_self rfl

theorem locates_boolean : Locates Reader.boolean := by
  intro p j
  cases j with
  | boolean b => exact blames_ok b
  | _ => exact blames_self rfl

theorem locates_name : Locates Reader.name := by
  intro p j
  exact (locates_text p j).bind fun s _ =>
    Blames.check (fun _ => within_self rfl) fun _ => blames_ok s

/-- A word that the vocabulary does not have is blamed where it stands. -/
theorem blames_lookUp {P : Fault → Prop} {v : Vocabulary α} {s : String}
    (h : ∀ c : Cause, c.isPlain = true → P ⟨p, c⟩) : Blames P (lookUp v p s) := by
  unfold lookUp
  cases v.find? s with
  | some a => exact blames_ok a
  | none => exact blames_error (h _ rfl)

/-- A word that names no flag is blamed where it stands. -/
theorem blames_flagNamed {φ : Type} [Flag φ] {P : Fault → Prop} {noun s : String}
    (h : ∀ c : Cause, c.isPlain = true → P ⟨p, c⟩) :
    Blames P (flagNamed noun p s : Except Fault φ) := by
  unfold flagNamed
  cases (Named.ofName? (Text.capitals (Text.trimmed s)) : Option φ) with
  | some f => exact blames_ok f
  | none => exact blames_error (h _ rfl)

theorem locates_spelled (v : Vocabulary α) : Locates (Reader.spelled v) := by
  intro p j
  exact (locates_text p j).bind fun s _ => blames_lookUp fun _ hc => within_self hc

theorem locates_index : Locates Reader.index := by
  intro p j
  cases j with
  | text s =>
    by_cases hs : ((Text.trimmed s).toList = Template.token ||
        Text.sameFolded (Text.trimmed s) "i") = true
    · have hread : Reader.index p (.text s) = .ok .iteration := if_pos hs
      rw [hread]
      exact blames_ok _
    · have hread : Reader.index p (.text s) =
          .error ⟨p, .unknownWord "index token" (Text.trimmed s)⟩ := if_neg hs
      rw [hread]
      exact blames_self rfl
  | _ => exact (locates_word p _).map Index.literal

/-- A reader of objects blames the object or one of its fields if all that it does with the fields does
so. -/
theorem locates_object {g : Path → Fields → Except Fault α}
    (h : ∀ o : Fields, Blames (Within o.path (.object o.fields)) (g o.path o)) :
    Locates (fun p j => Reader.object p j >>= g p) := by
  intro p j
  cases j with
  | object fields => exact h ⟨p, fields⟩
  | _ => exact blames_self rfl

end

/-- The result blames a field of the object, or something below one. -/
abbrev BlamesField {α : Type} (o : Fields) (x : Except Fault α) : Prop :=
  Blames (Below o.path (.object o.fields)) x

section

variable {α : Type} {read : Reader (Except Fault) α} {o : Fields} {key : String}

theorem BlamesField.within {x : Except Fault α} (h : BlamesField o x) :
    Blames (Within o.path (.object o.fields)) x :=
  h.mono fun _ hf => .inr hf

theorem blamesField_of_some {v : Json} (h : Locates read) (hv : o.find? key = some v) :
    BlamesField o (read (o.pathOf key) v) :=
  (h (o.pathOf key) v).mono fun _ hf => below_of_field (has_iff.2 hv) hf

theorem blamesField_required (h : Locates read) : BlamesField o (o.required key read) := by
  cases hfind : o.find? key with
  | none =>
    rw [Fields.required_of_none hfind]
    exact blames_error (below_missing (Fields.find?_eq_none.1 hfind) rfl)
  | some v =>
    rw [Fields.required_of_some hfind]
    exact blamesField_of_some h hfind

theorem blamesField_optional (h : Locates read) : BlamesField o (o.optional key read) := by
  cases hfind : o.find? key with
  | none =>
    rw [Fields.optional_of_none hfind]
    exact blames_ok none
  | some v =>
    rw [Fields.optional_of_some hfind]
    exact (blamesField_of_some h hfind).map some

/-- A field may be blamed for any plain cause. -/
theorem blamesField_error {c : Cause} (hc : c.isPlain = true) :
    BlamesField o (.error ⟨o.pathOf key, c⟩ : Except Fault α) :=
  blames_error (below_field hc)

theorem blamesField_lookUp (v : Vocabulary α) (s : String) :
    BlamesField o (lookUp v (o.pathOf key) s) :=
  blames_lookUp fun _ hc => below_field hc

end

section

variable {α : Type} {read : Reader (Except Fault) α} {p : Path} {j : Json}

theorem locates_items : Locates Reader.items := by
  intro p j
  cases j with
  | array js => exact blames_ok _
  | _ => exact blames_self rfl

/-- Each item of an array has the path of its position. -/
theorem exists_of_mem_items {items : List (Path × Json)} (h : Reader.items p j = .ok items)
    {x : Path × Json} (hx : x ∈ items) :
    ∃ js i, j = .array js ∧ js[i]? = some x.2 ∧ x.1 = p.item i := by
  obtain ⟨js, rfl, rfl⟩ := items_eq_ok.1 h
  obtain ⟨i, hi, rfl⟩ := List.mem_mapIdx.1 hx
  exact ⟨js, i, rfl, List.getElem?_eq_getElem hi, rfl⟩

theorem Locates.blames_item (h : Locates read) {items : List (Path × Json)}
    (hitems : Reader.items p j = .ok items) {x : Path × Json} (hx : x ∈ items) :
    Blames (Within p j) (read x.1 x.2) := by
  obtain ⟨js, i, rfl, hi, hpath⟩ := exists_of_mem_items hitems hx
  rw [hpath]
  exact (h (p.item i) x.2).mono fun _ hf => .inr (below_of_item hi hf)

theorem Locates.list (h : Locates read) : Locates (Reader.list read) := by
  intro p j
  exact (locates_items p j).bind fun items hitems =>
    blames_mapM fun x hx => h.blames_item hitems hx

theorem Locates.located (h : Locates read) : Locates (Reader.located read) := by
  intro p j
  exact (h p j).bind fun a _ => blames_ok (p, a)

/-- Each string of an array of strings has the path of its item. -/
theorem within_of_mem_texts {ws : List (Path × String)}
    (h : Reader.list (.located .text) p j = .ok ws) {w : Path × String} (hw : w ∈ ws) {c : Cause}
    (hc : c.isPlain = true) : Within p j ⟨w.1, c⟩ := by
  obtain ⟨js, rfl, hws⟩ := texts_eq_ok.1 h
  obtain ⟨x, hx, hpath, -⟩ := exists_mem_of_forall₂ hws hw
  obtain ⟨i, hi, rfl⟩ := List.mem_mapIdx.1 hx
  rw [hpath]
  exact .inr (below_of_item (List.getElem?_eq_getElem hi) (within_self hc))

theorem locates_flags {φ : Type} [Flag φ] (noun : String) :
    Locates (Reader.flags noun : Reader (Except Fault) (FlagSet φ)) := by
  intro p j
  refine (locates_text.located.list p j).bind fun ws hws => ?_
  refine blames_foldlM (fun w hw s => ?_) FlagSet.empty
  have hflag : Blames (Within p j) (flagNamed noun w.1 w.2 : Except Fault φ) :=
    blames_flagNamed fun _ hc => within_of_mem_texts hws hw hc
  exact hflag.bind fun f _ => blames_ok _

end

end FrameGraph.Document
