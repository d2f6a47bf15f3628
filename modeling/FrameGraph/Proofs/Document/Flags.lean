import FrameGraph.Proofs.Document.FirstFault
import FrameGraph.Proofs.Document.Writing

namespace FrameGraph.Document

open Text (capitals folded trimmed)

variable {ε α β φ : Type} [Flag φ] {noun : String}

/-- The string is the name of the flag, but for blanks around it and the case of ASCII letters. -/
def NamesFlag (s : String) (f : φ) : Prop := folded (trimmed s) = folded (Named.name f)

instance (s : String) (f : φ) : Decidable (NamesFlag s f) :=
  inferInstanceAs (Decidable (folded (trimmed s) = folded (Named.name f)))

/-- A string that names the flag. -/
def Form.flag : Form φ := fun j f => ∃ s, j = .text s ∧ NamesFlag s f

/-- The items of a field of flags; there are none when the field is absent or null. -/
inductive FlagItems (o : Entries) (key : String) : List Json → Prop where
  | absent (h : Lacks o key) : FlagItems o key []
  | present {js : List Json} (h : Has o key (.array js)) : FlagItems o key js

/-- The fault of a value at a path that is read as flags. -/
inductive FlagsFault (φ : Type) [Flag φ] (noun : String) (p : Path) : Json → Fault → Prop where
  | notArray {j : Json} (h : ∀ js, j ≠ .array js) :
      FlagsFault φ noun p j ⟨p, .unexpected .array j.kind⟩
  | notString {js : List Json} {i : Nat} {j : Json} (hi : js[i]? = some j) (h : ∀ s, j ≠ .text s)
      (hbefore : ∀ j' ∈ js.take i, ∃ s, j' = .text s) :
      FlagsFault φ noun p (.array js) ⟨p.item i, .unexpected .string j.kind⟩
  | unknown {words : List String} {i : Nat} {w : String} (hi : words[i]? = some w)
      (h : ∀ f : φ, ¬NamesFlag w f) (hbefore : ∀ w' ∈ words.take i, ∃ f : φ, NamesFlag w' f) :
      FlagsFault φ noun p (.array (words.map .text)) ⟨p.item i, .unknownWord noun w⟩

theorem FlagItems.unique {o : Entries} {key : String} {js js' : List Json} (h : FlagItems o key js)
    (h' : FlagItems o key js') : js = js' := by
  cases h with
  | absent hlacks =>
    cases h' with
    | absent => rfl
    | present hj => exact absurd ((lacks_iff.1 hlacks).symm.trans (has_iff.1 hj)) nofun
  | present hj =>
    cases h' with
    | absent hlacks => exact absurd ((lacks_iff.1 hlacks).symm.trans (has_iff.1 hj)) nofun
    | present hj' =>
      exact Json.array.inj (Option.some.inj ((has_iff.1 hj).symm.trans (has_iff.1 hj')))

theorem mapM_eq_error {g : α → Except ε β} {as : List α} {f : ε} :
    as.mapM g = .error f ↔
      ∃ i a, as[i]? = some a ∧ g a = .error f ∧ ∀ a' ∈ as.take i, ∃ b, g a' = .ok b := by
  induction as with
  | nil =>
    constructor
    · intro h
      exact absurd h nofun
    · intro h
      obtain ⟨i, a, hi, -⟩ := h
      exact absurd hi nofun
  | cons a as ih =>
    rw [List.mapM_cons, bind_eq_error]
    constructor
    · intro h
      obtain hfirst | ⟨b, hb, hrest⟩ := h
      · exact ⟨0, a, rfl, hfirst, fun a' ha' => absurd ha' List.not_mem_nil⟩
      · obtain hrest | ⟨bs, -, hpure⟩ := bind_eq_error.1 hrest
        · obtain ⟨i, a', hi, hfail, hbefore⟩ := ih.1 hrest
          refine ⟨i + 1, a', hi, hfail, ?_⟩
          rw [List.take_succ_cons]
          exact List.forall_mem_cons.2 ⟨⟨b, hb⟩, hbefore⟩
        · exact absurd hpure nofun
    · intro h
      obtain ⟨i, a', hi, hfail, hbefore⟩ := h
      cases i with
      | zero =>
        obtain rfl : a = a' := Option.some.inj hi
        exact .inl hfail
      | succ i =>
        rw [List.take_succ_cons] at hbefore
        obtain ⟨⟨b, hb⟩, hbefore⟩ := List.forall_mem_cons.1 hbefore
        exact .inr ⟨b, hb, bind_eq_error.2 (.inl (ih.2 ⟨i, a', hi, hfail, hbefore⟩))⟩

theorem text_eq_error {p : Path} {j : Json} {f : Fault} :
    Reader.text p j = .error f ↔ (∀ s, j ≠ .text s) ∧ f = ⟨p, .unexpected .string j.kind⟩ := by
  cases j <;> simp [Reader.text, Reader.unexpected, pure, Except.pure, eq_comm]

theorem items_eq_error {p : Path} {j : Json} {f : Fault} :
    Reader.items p j = .error f ↔ (∀ js, j ≠ .array js) ∧ f = ⟨p, .unexpected .array j.kind⟩ := by
  cases j <;> simp [Reader.items, Reader.unexpected, pure, Except.pure, eq_comm]

theorem located_eq_error {read : Reader (Except Fault) α} {p : Path} {j : Json} {f : Fault} :
    Reader.located read p j = .error f ↔ read p j = .error f := by
  unfold Reader.located
  rw [bind_eq_error]
  constructor
  · intro h
    obtain hread | ⟨a, -, hpure⟩ := h
    · exact hread
    · exact absurd hpure nofun
  · exact .inl

/-- A property of items does not depend on their paths. -/
theorem forall_mem_items {P : α → Prop} {p : Path} {as : List α} :
    (∀ x ∈ as.mapIdx fun i a => (p.item i, a), P x.2) ↔ ∀ a ∈ as, P a := by
  conv_rhs => rw [← map_snd_items p as, List.forall_mem_map]

theorem exists_forall₂_iff_forall {R : α → β → Prop} {as : List α} :
    (∃ bs, List.Forall₂ R as bs) ↔ ∀ a ∈ as, ∃ b, R a b := by
  induction as with
  | nil => exact ⟨fun _ => List.forall_mem_nil _, fun _ => ⟨[], .nil⟩⟩
  | cons a as ih =>
    rw [List.forall_mem_cons, ← ih]
    constructor
    · intro h
      obtain ⟨bs, hbs⟩ := h
      obtain ⟨b, bs, hb, hrest, rfl⟩ := List.forall₂_cons_left_iff.1 hbs
      exact ⟨⟨b, hb⟩, bs, hrest⟩
    · intro h
      obtain ⟨⟨b, hb⟩, bs, hbs⟩ := h
      exact ⟨b :: bs, .cons hb hbs⟩

/-- An array of strings, each with the path of its item. -/
theorem texts_eq_ok_iff {p : Path} {j : Json} {ws : List (Path × String)} :
    Reader.list (.located .text) p j = .ok ws ↔
      ∃ words : List String, j = .array (words.map .text) ∧
        ws = words.mapIdx fun i w => (p.item i, w) := by
  rw [texts_eq_ok]
  constructor
  · intro h
    obtain ⟨js, rfl, hws⟩ := h
    have hlength : js.length = ws.length := by simpa using hws.length_eq
    have hitem (i : Nat) (hjs : i < js.length) (hi : i < ws.length) :
        ws[i].1 = p.item i ∧ js[i] = .text ws[i].2 := by
      simpa using List.Forall₂.get hws (by simpa using hjs) hi
    refine ⟨ws.map Prod.snd, congrArg Json.array ?_, ?_⟩
    · refine List.ext_getElem (by simpa using hlength) fun i hi hi' => ?_
      rw [(hitem i hi (hlength ▸ hi)).2]
      simp
    · refine List.ext_getElem (by simp) fun i hi hi' => ?_
      simp [Prod.ext_iff, (hitem i (hlength ▸ hi) hi).1]
  · intro h
    obtain ⟨words, rfl, rfl⟩ := h
    refine ⟨_, rfl, List.forall₂_iff_get.2 ⟨by simp, fun i hi hi' => by simp⟩⟩

/-- Reading strings fails if there is no array, or at the first item that is no string. -/
theorem texts_eq_error {p : Path} {j : Json} {f : Fault} :
    Reader.list (.located .text) p j = .error f ↔
      (∀ js, j ≠ .array js) ∧ f = ⟨p, .unexpected .array j.kind⟩ ∨
      ∃ js i j', j = .array js ∧ js[i]? = some j' ∧ (∀ s, j' ≠ .text s) ∧
        (∀ j'' ∈ js.take i, ∃ s, j'' = .text s) ∧ f = ⟨p.item i, .unexpected .string j'.kind⟩ := by
  unfold Reader.list
  rw [bind_eq_error]
  refine or_congr items_eq_error ?_
  simp only [items_eq_ok, mapM_eq_error, located_eq_error, text_eq_error, located_eq_ok]
  have hlocated (x : Path × Json) :
      (∃ w : Path × String, w.1 = x.1 ∧ Reader.text x.1 x.2 = .ok w.2) ↔ ∃ s, x.2 = .text s := by
    simp only [reads_text _ _ _]
    exact ⟨fun ⟨w, _, hw⟩ => ⟨w.2, hw⟩, fun ⟨s, hs⟩ => ⟨(x.1, s), rfl, hs⟩⟩
  simp only [hlocated]
  constructor
  · intro h
    obtain ⟨items, ⟨js, rfl, rfl⟩, i, x, hx, ⟨hstring, rfl⟩, hbefore⟩ := h
    rw [take_mapIdx, forall_mem_items (P := fun j : Json => ∃ s, j = .text s)] at hbefore
    rw [List.getElem?_mapIdx] at hx
    obtain ⟨j', hi, rfl⟩ := Option.map_eq_some_iff.1 hx
    exact ⟨js, i, j', rfl, hi, hstring, hbefore, rfl⟩
  · intro h
    obtain ⟨js, i, j', rfl, hi, hstring, hbefore, rfl⟩ := h
    refine ⟨_, ⟨js, rfl, rfl⟩, i, (p.item i, j'), ?_, ⟨hstring, rfl⟩, ?_⟩
    · rw [List.getElem?_mapIdx, hi]
      rfl
    · rw [take_mapIdx, forall_mem_items (P := fun j : Json => ∃ s, j = .text s)]
      exact hbefore

section

variable [DecidableEq φ] [Complete (Vocabulary.flags φ noun)]

theorem spells_flags_iff {s : String} {f : φ} :
    Spells (Vocabulary.flags φ noun) s f ↔ NamesFlag s f := by
  unfold Spells NamesFlag
  constructor
  · intro h
    obtain ⟨w, hw, hs⟩ := h
    obtain ⟨g, -, heq⟩ := List.mem_map.1 hw
    obtain ⟨rfl, rfl⟩ := Prod.mk.inj heq
    exact hs
  · intro h
    obtain ⟨⟨w, g⟩, hw, rfl⟩ := Complete.mem (v := Vocabulary.flags φ noun) f
    obtain ⟨g', -, heq⟩ := List.mem_map.1 hw
    obtain ⟨rfl, rfl⟩ := Prod.mk.inj heq
    exact ⟨_, hw, h⟩

theorem token_flags : Form.token (Vocabulary.flags φ noun) = Form.flag := by
  funext j f
  unfold Form.token Form.flag
  simp only [spells_flags_iff]

variable [InCapitals φ]

variable (noun) in
include noun in
theorem ofName?_eq_some_iff_namesFlag {s : String} {f : φ} :
    Named.ofName? (capitals (trimmed s)) = some f ↔ NamesFlag s f :=
  (ofName?_eq_some_iff noun).trans spells_flags_iff

variable (noun) in
include noun in
/-- A string names at most one flag. -/
theorem namesFlag_unique {s : String} {f g : φ} (hf : NamesFlag s f) (hg : NamesFlag s g) :
    f = g := by
  have hnamed := (ofName?_eq_some_iff_namesFlag noun).2 hf
  rw [(ofName?_eq_some_iff_namesFlag noun).2 hg] at hnamed
  exact (Option.some.inj hnamed).symm

theorem flagNamed_eq_error {p : Path} {s : String} {f : Fault} :
    (flagNamed noun p s : Except Fault φ) = .error f ↔
      (∀ g : φ, ¬NamesFlag s g) ∧ f = ⟨p, .unknownWord noun s⟩ := by
  unfold flagNamed
  simp only [← ofName?_eq_some_iff_namesFlag noun]
  cases hfind : (Named.ofName? (capitals (trimmed s)) : Option φ) with
  | none => simp [eq_comm]
  | some g => simp [pure, Except.pure]

/-- The words of a field name the flags that it is read as. -/
theorem flags_eq_ok_iff {o : Fields} {key : String} {s : FlagSet φ} :
    o.flags key noun = .ok s ↔
      ∃ js fs, FlagItems o.fields key js ∧ List.Forall₂ Form.flag js fs ∧
        s = fs.foldl .insert .empty := by
  rw [flags_eq_ok]
  unfold HoldsOr Holds Form.flags Form.list
  rw [token_flags]
  constructor
  · intro h
    obtain ⟨j, hj, fs, ⟨js, rfl, hfs⟩, rfl⟩ | ⟨hlacks, rfl⟩ := h
    · exact ⟨js, fs, .present hj, hfs, rfl⟩
    · exact ⟨[], [], .absent hlacks, .nil, rfl⟩
  · intro h
    obtain ⟨js, fs, hitems, hfs, rfl⟩ := h
    cases hitems with
    | absent hlacks =>
      cases hfs
      exact .inr ⟨hlacks, rfl⟩
    | present hj => exact .inl ⟨_, hj, fs, ⟨js, rfl, hfs⟩, rfl⟩

/-- Words are looked up until one names no flag. -/
theorem foldlM_insert_eq_error {p : Path} {words : List String} {s : FlagSet φ} {f : Fault} :
    (words.mapIdx fun i w => (p.item i, w)).foldlM
        (fun s w => do return s.insert (← flagNamed noun w.1 w.2)) s = .error f ↔
      ∃ i w, words[i]? = some w ∧ (∀ g : φ, ¬NamesFlag w g) ∧
        (∀ w' ∈ words.take i, ∃ g : φ, NamesFlag w' g) ∧ f = ⟨p.item i, .unknownWord noun w⟩ := by
  have hbefore (i : Nat) :
      (∃ s', ((words.mapIdx fun i w => (p.item i, w)).take i).foldlM
        (fun s w => do return s.insert (← flagNamed noun w.1 w.2)) s = .ok s') ↔
      ∀ w' ∈ words.take i, ∃ g : φ, NamesFlag w' g := by
    simp only [foldlM_insert_eq_ok, spells_flags_iff]
    rw [take_mapIdx, ← forall_mem_items (P := fun w => ∃ g : φ, NamesFlag w g),
      ← exists_forall₂_iff_forall]
    exact ⟨fun ⟨_, fs, hfs, _⟩ => ⟨fs, hfs⟩, fun ⟨fs, hfs⟩ => ⟨_, fs, hfs, rfl⟩⟩
  rw [foldlM_eq_error]
  constructor
  · intro h
    obtain ⟨i, x, s', hx, hs', hfail⟩ := h
    rw [List.getElem?_mapIdx] at hx
    obtain ⟨w, hi, rfl⟩ := Option.map_eq_some_iff.1 hx
    obtain hnaming | ⟨g, -, hpure⟩ := bind_eq_error.1 hfail
    · obtain ⟨hw, rfl⟩ := (flagNamed_eq_error).1 hnaming
      exact ⟨i, w, hi, hw, (hbefore i).1 ⟨s', hs'⟩, rfl⟩
    · exact absurd hpure nofun
  · intro h
    obtain ⟨i, w, hi, hw, hnamed, rfl⟩ := h
    obtain ⟨s', hs'⟩ := (hbefore i).2 hnamed
    refine ⟨i, (p.item i, w), s', ?_, hs', ?_⟩
    · rw [List.getElem?_mapIdx, hi]
      rfl
    · exact bind_eq_error.2 (.inl ((flagNamed_eq_error).2 ⟨hw, rfl⟩))

/-- Reading an array of flags fails with the fault of the value. -/
theorem flagsReader_eq_error {p : Path} {j : Json} {f : Fault} :
    (Reader.flags noun p j : Except Fault (FlagSet φ)) = .error f ↔ FlagsFault φ noun p j f := by
  unfold Reader.flags
  rw [bind_eq_error, texts_eq_error]
  constructor
  · intro h
    obtain (⟨harray, rfl⟩ | ⟨js, i, j', rfl, hi, hstring, hbefore, rfl⟩) | ⟨ws, hws, hfail⟩ := h
    · exact .notArray harray
    · exact .notString hi hstring hbefore
    · obtain ⟨words, rfl, rfl⟩ := texts_eq_ok_iff.1 hws
      obtain ⟨i, w, hi, hw, hbefore, rfl⟩ := foldlM_insert_eq_error.1 hfail
      exact .unknown hi hw hbefore
  · intro h
    cases h with
    | notArray harray => exact .inl (.inl ⟨harray, rfl⟩)
    | notString hi hstring hbefore =>
      exact .inl (.inr ⟨_, _, _, rfl, hi, hstring, hbefore, rfl⟩)
    | unknown hi hw hbefore =>
      exact .inr ⟨_, texts_eq_ok_iff.2 ⟨_, rfl, rfl⟩,
        foldlM_insert_eq_error.2 ⟨_, _, hi, hw, hbefore, rfl⟩⟩

/-- A field of flags is refused with the fault of its value. -/
theorem flags_eq_error {o : Fields} {key : String} {f : Fault} :
    (o.flags key noun : Except Fault (FlagSet φ)) = .error f ↔
      ∃ j, Has o.fields key j ∧ FlagsFault φ noun (o.pathOf key) j f := by
  simp only [has_iff, ← flagsReader_eq_error]
  unfold Fields.flags
  cases hfind : Json.present? o.fields key with
  | none =>
    rw [Fields.optional_of_none hfind]
    exact ⟨nofun, fun ⟨_, hj, _⟩ => absurd hj nofun⟩
  | some j =>
    rw [Fields.optional_of_some hfind]
    cases hread : (Reader.flags noun (o.pathOf key) j : Except Fault (FlagSet φ)) with
    | error f' =>
      constructor
      · intro h
        obtain rfl := Except.error.inj h
        exact ⟨j, rfl, hread⟩
      · intro h
        obtain ⟨j', hj', hfail⟩ := h
        obtain rfl := Option.some.inj hj'
        obtain rfl := Except.error.inj (hread.symm.trans hfail)
        rfl
    | ok s =>
      refine ⟨nofun, fun h => ?_⟩
      obtain ⟨j', hj', hfail⟩ := h
      obtain rfl := Option.some.inj hj'
      exact absurd (hread.symm.trans hfail) nofun

theorem flags_accepted {o : Fields} {key : String} :
    (∃ s : FlagSet φ, o.flags key noun = .ok s) ↔
      ∃ js, FlagItems o.fields key js ∧ ∀ j ∈ js, ∃ f : φ, Form.flag j f := by
  simp only [flags_eq_ok_iff, ← exists_forall₂_iff_forall]
  constructor
  · intro h
    obtain ⟨s, js, fs, hitems, hfs, -⟩ := h
    exact ⟨js, hitems, fs, hfs⟩
  · intro h
    obtain ⟨js, hitems, fs, hfs⟩ := h
    exact ⟨_, js, fs, hitems, hfs, rfl⟩

/-- The bits of the set are those of the flags named. -/
theorem flags_bits {o : Fields} {key : String} {s : FlagSet φ} {js : List Json}
    (hs : o.flags key noun = .ok s) (hitems : FlagItems o.fields key js) (i : Fin (Flag.width φ)) :
    s.bits.getLsb i = true ↔ ∃ j ∈ js, ∃ f : φ, Form.flag j f ∧ Flag.bit f = i := by
  obtain ⟨js', fs, hitems', hfs, rfl⟩ := flags_eq_ok_iff.1 hs
  obtain rfl := hitems'.unique hitems
  rw [getLsb_foldl_insert, FlagSet.getLsb_empty, Bool.false_or, List.any_eq_true]
  constructor
  · intro h
    obtain ⟨f, hf, hbit⟩ := h
    obtain ⟨j, hj, hflag⟩ := exists_mem_of_forall₂ hfs hf
    exact ⟨j, hj, f, hflag, eq_of_beq hbit⟩
  · intro h
    obtain ⟨j, hj, f, ⟨w, rfl, hw⟩, hbit⟩ := h
    obtain ⟨g, hg, w', hw', hnamed⟩ := exists_mem_of_forall₂ hfs.flip hj
    obtain rfl := Json.text.inj hw'
    obtain rfl := namesFlag_unique noun hnamed hw
    exact ⟨g, hg, beq_iff_eq.2 hbit⟩

/-- Fields with the same items, in whatever order and however often, are read as one set. -/
theorem flags_same {o o' : Fields} {key key' : String} {s : FlagSet φ} {js js' : List Json}
    (hitems : FlagItems o.fields key js) (hitems' : FlagItems o'.fields key' js')
    (hsame : ∀ j, j ∈ js ↔ j ∈ js') (hs : o.flags key noun = .ok s) :
    o'.flags key' noun = .ok s := by
  obtain ⟨js'', hitems'', hnamed⟩ := flags_accepted.1 ⟨s, hs⟩
  obtain rfl := hitems''.unique hitems
  obtain ⟨s', hs'⟩ : ∃ s' : FlagSet φ, o'.flags key' noun = .ok s' :=
    flags_accepted.2 ⟨js', hitems', fun j hj => hnamed j ((hsame j).2 hj)⟩
  have hbits : s.bits = s'.bits := by
    ext i hi
    have hbit : s.bits.getLsb ⟨i, hi⟩ = s'.bits.getLsb ⟨i, hi⟩ := by
      rw [Bool.eq_iff_iff, flags_bits hs hitems, flags_bits hs' hitems']
      simp only [hsame]
    exact hbit
  rw [hs']
  exact congrArg Except.ok (congrArg FlagSet.mk hbits.symm)

/-- Only a field without items is read as no flags. -/
theorem flags_isEmpty {o : Fields} {key : String} {s : FlagSet φ} (hs : o.flags key noun = .ok s) :
    s.isEmpty = true ↔ FlagItems o.fields key [] := by
  obtain ⟨js, hitems, hnamed⟩ := flags_accepted.1 ⟨s, hs⟩
  have hbits := flags_bits hs hitems
  constructor
  · intro hempty
    cases js with
    | nil => exact hitems
    | cons j js =>
      obtain ⟨f, hf⟩ := hnamed j (List.mem_cons_self ..)
      have hset := (hbits (Flag.bit f)).2 ⟨j, List.mem_cons_self .., f, hf, rfl⟩
      rw [eq_of_beq hempty] at hset
      exact absurd ((FlagSet.getLsb_empty (Flag.bit f)).symm.trans hset) Bool.false_ne_true
  · intro hnone
    obtain rfl := hitems.unique hnone
    refine beq_iff_eq.2 ?_
    ext i hi
    have hunset : s.bits.getLsb ⟨i, hi⟩ = false := by
      refine Bool.eq_false_iff.2 fun hset => ?_
      obtain ⟨j, hj, -⟩ := (hbits ⟨i, hi⟩).1 hset
      exact List.not_mem_nil hj
    rw [BitVec.getElem_zero, ← hunset]
    rfl

end

/-- Fields of one kind of flags are read as sets, and an item that names no flag is never passed over. -/
structure ReadsFlagSets (φ : Type) [Flag φ] (noun : String) : Prop where
  accepted : ∀ (o : Fields) (key : String), (∃ s : FlagSet φ, o.flags key noun = .ok s) ↔
    ∃ js, FlagItems o.fields key js ∧ ∀ j ∈ js, ∃ f : φ, Form.flag j f
  bits : ∀ (o : Fields) (key : String) (s : FlagSet φ) (js : List Json),
    o.flags key noun = .ok s → FlagItems o.fields key js →
      ∀ i, s.bits.getLsb i = true ↔ ∃ j ∈ js, ∃ f : φ, Form.flag j f ∧ Flag.bit f = i
  same : ∀ (o o' : Fields) (key key' : String) (s : FlagSet φ) (js js' : List Json),
    FlagItems o.fields key js → FlagItems o'.fields key' js' → (∀ j, j ∈ js ↔ j ∈ js') →
      o.flags key noun = .ok s → o'.flags key' noun = .ok s
  empty : ∀ (o : Fields) (key : String) (s : FlagSet φ), o.flags key noun = .ok s →
    (s.isEmpty = true ↔ FlagItems o.fields key [])
  refused : ∀ (o : Fields) (key : String) (f : Fault),
    (o.flags key noun : Except Fault (FlagSet φ)) = .error f ↔
      ∃ j, Has o.fields key j ∧ FlagsFault φ noun (o.pathOf key) j f
  format : ∀ (o : Fields) (key : String) (f : Fault),
    (o.flags key noun : Except Fault (FlagSet φ)) = .error f → f.error.kind = .format

theorem FlagsFault.kind_error {p : Path} {j : Json} {f : Fault} (h : FlagsFault φ noun p j f) :
    f.error.kind = .format := by
  cases h <;> rfl

theorem readsFlagSets [DecidableEq φ] [Complete (Vocabulary.flags φ noun)] [InCapitals φ] :
    ReadsFlagSets φ noun where
  accepted _ _ := flags_accepted
  bits _ _ _ _ hs hitems := flags_bits hs hitems
  same _ _ _ _ _ _ _ hitems hitems' hsame hs := flags_same hitems hitems' hsame hs
  empty _ _ _ hs := flags_isEmpty hs
  refused _ _ _ := flags_eq_error
  format _ _ _ hf := by
    obtain ⟨j, -, hfault⟩ := flags_eq_error.1 hf
    exact hfault.kind_error

/-- The flags of resources and of passes, and the usages of textures and of buffers, are read as sets. -/
theorem flag_fields_are_sets :
    ReadsFlagSets ResourceFlag "resource flag" ∧ ReadsFlagSets PassFlag "pass flag" ∧
      ReadsFlagSets TextureUsage "texture usage" ∧ ReadsFlagSets BufferUsage "buffer usage" :=
  ⟨readsFlagSets, readsFlagSets, readsFlagSets, readsFlagSets⟩

/-- A usage given twice and in another case, and a number after an unknown word, which is the fault. -/
theorem usage_fields_as_sets :
    (∃ s : FlagSet TextureUsage,
      (⟨[], [("usage", .array [.text "SAMPLED", .text " sampled "])]⟩ : Fields).flags "usage"
        "texture usage" = .ok s ∧ s.bits.getLsb (Flag.bit TextureUsage.sampled) = true ∧
        s.isEmpty ≠ true) ∧
    ((⟨[], [("usage", .array [.text "SAMPLD", .natural 1])]⟩ : Fields).flags "usage"
      "texture usage" : Except Fault (FlagSet TextureUsage)) =
        .error ⟨(Path.field [] "usage").item 1, .unexpected .string "a number"⟩ := by
  obtain ⟨-, -, htexture, -⟩ := flag_fields_are_sets
  have hitems : FlagItems [("usage", .array [.text "SAMPLED", .text " sampled "])] "usage"
      [.text "SAMPLED", .text " sampled "] := .present (has_iff.2 rfl)
  have hsampled : ∀ j ∈ [Json.text "SAMPLED", .text " sampled "],
      Form.flag j TextureUsage.sampled := by
    rintro j hj
    rcases List.mem_pair.1 hj with rfl | rfl
    · exact ⟨_, rfl, by decide⟩
    · exact ⟨_, rfl, by decide⟩
  have hfault : FlagsFault TextureUsage "texture usage" (Path.field [] "usage")
      (.array [.text "SAMPLD", .natural 1])
      ⟨(Path.field [] "usage").item 1, .unexpected .string "a number"⟩ :=
    .notString (i := 1) (j := .natural 1) rfl (fun _ => nofun) fun j hj =>
      ⟨"SAMPLD", List.mem_singleton.1 hj⟩
  refine ⟨?_, (htexture.refused _ _ _).2 ⟨_, has_iff.2 rfl, hfault⟩⟩
  obtain ⟨s, hs⟩ := (htexture.accepted ⟨[], _⟩ _).2 ⟨_, hitems, fun j hj => ⟨_, hsampled j hj⟩⟩
  refine ⟨s, hs, ?_, fun hempty => ?_⟩
  · exact (htexture.bits _ _ s _ hs hitems _).2
      ⟨_, List.mem_cons_self .., _, hsampled _ (List.mem_cons_self ..), rfl⟩
  · exact absurd (hitems.unique ((htexture.empty _ _ s hs).1 hempty)) nofun

end FrameGraph.Document
