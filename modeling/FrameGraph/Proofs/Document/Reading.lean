import FrameGraph.Document.Graph
import FrameGraph.Proofs.Document.Grammar
import Mathlib.Data.List.Nodup

namespace FrameGraph.Document

open Text (Vocabulary capitals folded trimmed)

variable {ε α β : Type}

theorem bind_eq_ok {x : Except ε α} {f : α → Except ε β} {b : β} :
    (x >>= f) = .ok b ↔ ∃ a, x = .ok a ∧ f a = .ok b := by
  cases x with
  | error e => simp [bind, Except.bind]
  | ok a => simp [bind, Except.bind]

theorem map_eq_ok {x : Except ε α} {f : α → β} {b : β} :
    (f <$> x) = .ok b ↔ ∃ a, x = .ok a ∧ f a = b := by
  cases x with
  | error e => simp [Functor.map, Except.map]
  | ok a => simp [Functor.map, Except.map]

theorem pure_eq_ok {a b : α} : (pure a : Except ε α) = .ok b ↔ a = b := by
  simp [pure, Except.pure]

/-- What follows a check runs only if the check finds nothing. -/
theorem check_eq_ok {c : Prop} [Decidable c] {e : Fault} {f : β → Except Fault α}
    {x : Except Fault α} {a : α} :
    (if c then blame e >>= f else x) = .ok a ↔ ¬c ∧ x = .ok a := by
  by_cases h : c
  · simp [h, bind, Except.bind]
  · simp [h]

theorem isNull_eq_false {j : Json} : j.isNull = false ↔ j ≠ .null := by
  cases j <;> simp [Json.isNull]

theorem lacks_iff {o : Entries} {key : String} : Lacks o key ↔ Json.present? o key = none := by
  unfold Lacks Json.present?
  rw [Option.map_eq_none_iff, List.find?_eq_none]
  constructor
  · intro h f hf ht
    obtain ⟨hkey, hnull⟩ : f.1 = key ∧ f.2.isNull = false := by simpa using ht
    exact isNull_eq_false.1 hnull (h f.2 (hkey ▸ hf))
  · intro h j hj
    by_contra hnull
    exact h (key, j) hj (by simp [isNull_eq_false.2 hnull])

theorem has_iff {o : Entries} {key : String} {j : Json} :
    Has o key j ↔ Json.present? o key = some j := by
  unfold Has
  constructor
  · intro h
    obtain ⟨hnull, before, after, rfl, hbefore⟩ := h
    have hnone := Option.map_eq_none_iff.1 (lacks_iff.1 hbefore)
    unfold Json.present?
    rw [List.find?_append, hnone, List.find?_cons_of_pos (by simp [isNull_eq_false.2 hnull])]
    rfl
  · intro h
    obtain ⟨f, hf, rfl⟩ := Option.map_eq_some_iff.1 h
    obtain ⟨ht, before, after, rfl, hbefore⟩ := List.find?_eq_some_iff_append.1 hf
    obtain ⟨rfl, hnull⟩ : f.1 = key ∧ f.2.isNull = false := by simpa using ht
    refine ⟨isNull_eq_false.1 hnull, before, after, rfl, ?_⟩
    intro j hj
    by_contra hne
    have hfail := hbefore _ hj
    simp [isNull_eq_false.2 hne] at hfail

theorem not_lacks_of_holds {o : Entries} {key : String} {form : Form α} {a : α}
    (h : Holds o key form a) : ¬Lacks o key := by
  intro hlacks
  obtain ⟨j, hj, -⟩ := h
  exact absurd ((lacks_iff.1 hlacks).symm.trans (has_iff.1 hj)) nofun

/-- The reader accepts what has the form, and makes of it what it stands for. -/
def Reads (read : Reader (Except Fault) α) (form : Form α) : Prop := ∀ p j a, read p j = .ok a ↔ form j a

theorem Fields.find?_eq_none {o : Fields} {key : String} : o.find? key = none ↔ Lacks o.fields key :=
  lacks_iff.symm

theorem Fields.has_eq_false {o : Fields} {key : String} : o.has key = false ↔ Lacks o.fields key := by
  rw [← Fields.find?_eq_none, Fields.has, Option.isSome_eq_false_iff, Option.isNone_iff_eq_none]

section

variable {read : Reader (Except Fault) α} {form : Form α} {o : Fields} {key : String}

theorem Reads.required (h : Reads read form) {a : α} :
    o.required key read = .ok a ↔ Holds o.fields key form a := by
  cases hfind : o.find? key with
  | none =>
    rw [Fields.required_of_none hfind]
    constructor
    · intro hok
      exact absurd hok nofun
    · intro hholds
      exact absurd (Fields.find?_eq_none.1 hfind) (not_lacks_of_holds hholds)
  | some j =>
    rw [Fields.required_of_some hfind, h]
    constructor
    · intro ha
      exact ⟨j, has_iff.2 hfind, ha⟩
    · intro hholds
      obtain ⟨j', hj', ha⟩ := hholds
      obtain rfl := Option.some.inj (hfind.symm.trans (has_iff.1 hj'))
      exact ha

theorem Reads.optional (h : Reads read form) {a : Option α} :
    o.optional key read = .ok a ↔ MayHold o.fields key form a := by
  cases hfind : o.find? key with
  | none =>
    rw [Fields.optional_of_none hfind]
    cases a with
    | none => exact ⟨fun _ => Fields.find?_eq_none.1 hfind, fun _ => rfl⟩
    | some a =>
      constructor
      · intro hok
        exact absurd hok nofun
      · intro hholds
        exact absurd (Fields.find?_eq_none.1 hfind) (not_lacks_of_holds hholds)
  | some j =>
    rw [Fields.optional_of_some hfind, map_eq_ok]
    cases a with
    | none =>
      constructor
      · intro hok
        obtain ⟨a, -, ha⟩ := hok
        exact absurd ha nofun
      · intro hlacks
        exact absurd (hfind.symm.trans (Fields.find?_eq_none.2 hlacks)) nofun
    | some a =>
      show _ ↔ Holds o.fields key form a
      rw [← h.required, Fields.required_of_some hfind]
      constructor
      · intro hok
        obtain ⟨b, hb, heq⟩ := hok
        exact Option.some.inj heq ▸ hb
      · intro hok
        exact ⟨a, hok, rfl⟩

end

/-- A field with a default is one that may be there, with the default in its place. -/
theorem holdsOr_iff {form : Form α} {o : Entries} {key : String} {default a : α} :
    HoldsOr o key form default a ↔ ∃ m, MayHold o key form m ∧ m.getD default = a := by
  constructor
  · intro h
    rcases h with hholds | ⟨hlacks, rfl⟩
    · exact ⟨some a, hholds, rfl⟩
    · exact ⟨none, hlacks, rfl⟩
  · intro h
    obtain ⟨m, hm, rfl⟩ := h
    cases m with
    | none => exact .inr ⟨hm, rfl⟩
    | some a => exact .inl hm

theorem Reads.optionalOr {read : Reader (Except Fault) α} {form : Form α} {o : Fields} {key : String}
    (h : Reads read form) {default a : α} :
    (do return (← o.optional key read).getD default) = .ok a ↔
      HoldsOr o.fields key form default a := by
  rw [bind_eq_ok, holdsOr_iff]
  simp only [h.optional, pure_eq_ok]

theorem reads_text : Reads Reader.text .text := by
  intro p j s
  cases j <;> simp [Reader.text, Reader.unexpected, Form.text, pure_eq_ok]

theorem reads_boolean : Reads Reader.boolean .boolean := by
  intro p j b
  cases j <;> simp [Reader.boolean, Reader.unexpected, Form.boolean, pure_eq_ok]

theorem reads_long : Reads Reader.long .long := by
  intro p j n
  cases j <;> simp [Reader.long, Reader.unexpected, Form.long, pure_eq_ok]

theorem reads_single : Reads Reader.single .single := by
  intro p j x
  unfold Reader.single Form.single
  cases j.single? <;> simp [Reader.unexpected, pure_eq_ok]

theorem reads_word : Reads Reader.word .word := by
  intro p j n
  unfold Reader.word Form.word
  rw [bind_eq_ok]
  constructor
  · intro h
    obtain ⟨m, hm, hn⟩ := h
    refine ⟨m, (reads_long p j m).1 hm, ?_⟩
    by_cases hlt : m.toNat < UInt32.size
    · rw [if_pos hlt] at hn
      obtain rfl := pure_eq_ok.1 hn
      rw [UInt64.toNat_toUInt32]
      exact (Nat.mod_eq_of_lt hlt).symm
    · rw [if_neg hlt] at hn
      exact absurd hn nofun
  · intro h
    obtain ⟨m, hm, hn⟩ := h
    have hlt : m.toNat < UInt32.size := hn ▸ n.toNat_lt
    refine ⟨m, (reads_long p j m).2 hm, ?_⟩
    rw [if_pos hlt, pure_eq_ok]
    apply UInt32.toNat_inj.1
    rw [UInt64.toNat_toUInt32, Nat.mod_eq_of_lt hlt, hn]

theorem reads_name : Reads Reader.name .name := by
  intro p j s
  unfold Reader.name Form.name
  simp only [bind_eq_ok, check_eq_ok, reads_text p j _, pure_eq_ok]
  constructor
  · intro h
    obtain ⟨t, ht, hne, rfl⟩ := h
    exact ⟨ht, by simpa using hne⟩
  · intro h
    exact ⟨s, h.1, by simpa using h.2, rfl⟩

theorem object_eq_ok {p : Path} {j : Json} {o : Fields} :
    Reader.object p j = .ok o ↔ j = .object o.fields ∧ o.path = p := by
  cases j with
  | object fields =>
    show Except.ok (Fields.mk p fields) = .ok o ↔ _
    constructor
    · intro h
      obtain rfl := Except.ok.inj h
      exact ⟨rfl, rfl⟩
    · intro h
      obtain ⟨hfields, rfl⟩ := h
      rw [Json.object.inj hfields]
  | _ => simp [Reader.object, Reader.unexpected]

theorem object_bind (p : Path) (o : Entries) (f : Fields → Except Fault α) :
    (Reader.object p (.object o) >>= f) = f ⟨p, o⟩ := rfl

/-- A reader of objects reads what its fields are read as. -/
theorem reads_object {f : Path → Fields → Except Fault α} {fields : Entries → α → Prop}
    (h : ∀ p o a, f p o = .ok a ↔ fields o.fields a) :
    Reads (fun p j => Reader.object p j >>= f p) (.object fields) := by
  intro p j a
  rw [bind_eq_ok]
  constructor
  · intro hok
    obtain ⟨o, ho, ha⟩ := hok
    exact ⟨o.fields, (object_eq_ok.1 ho).1, (h p o a).1 ha⟩
  · intro hform
    obtain ⟨fs, rfl, ha⟩ := hform
    exact ⟨⟨p, fs⟩, rfl, (h p ⟨p, fs⟩ a).2 ha⟩

/-- No two words of the vocabulary are the same up to the case of ASCII letters. -/
def Unambiguous (v : Vocabulary α) : Prop := (v.words.map fun w => folded w.1).Nodup

instance (v : Vocabulary α) : Decidable (Unambiguous v) :=
  inferInstanceAs (Decidable (List.Nodup _))

theorem find?_eq_some_iff {v : Vocabulary α} (hv : Unambiguous v) {s : String} {a : α} :
    v.find? s = some a ↔ Spells v s a := by
  unfold Vocabulary.find? Spells
  constructor
  · intro h
    obtain ⟨w, hw, rfl⟩ := Option.map_eq_some_iff.1 h
    have hsame := List.find?_some hw
    exact ⟨w.1, List.mem_of_find?_eq_some hw, (Text.sameFolded_iff.1 hsame).symm⟩
  · intro h
    obtain ⟨w, hw, hs⟩ := h
    have hfound : (v.words.find? fun w => Text.sameFolded w.1 (trimmed s)).isSome = true := by
      rw [List.find?_isSome]
      exact ⟨(w, a), hw, Text.sameFolded_iff.2 hs.symm⟩
    obtain ⟨w', hw'⟩ := Option.isSome_iff_exists.1 hfound
    have hspelled := List.find?_some hw'
    have hsame : folded w'.1 = folded (trimmed s) := Text.sameFolded_iff.1 hspelled
    have heq := List.inj_on_of_nodup_map hv (List.mem_of_find?_eq_some hw') hw (hsame.trans hs)
    rw [hw', heq]
    rfl

theorem lookUp_eq_ok {v : Vocabulary α} (hv : Unambiguous v) {p : Path} {s : String} {a : α} :
    lookUp v p s = .ok a ↔ Spells v s a := by
  rw [← find?_eq_some_iff hv]
  unfold lookUp
  cases v.find? s <;> simp [pure_eq_ok]

/-- The flags of a kind have distinct names, all of them in capitals. -/
class InCapitals (φ : Type) [Flag φ] : Prop where
  distinct : ((Named.all : List φ).map Named.name).Nodup
  capital : ∀ f ∈ (Named.all : List φ), capitals (Named.name f) = Named.name f

instance : InCapitals ResourceFlag := ⟨by decide, by decide⟩

instance : InCapitals PassFlag := ⟨by decide, by decide⟩

instance : InCapitals TextureUsage := ⟨by decide, by decide⟩

instance : InCapitals BufferUsage := ⟨by decide, by decide⟩

/-- The flag whose name is a text in capitals is the one that the text spells. -/
theorem ofName?_eq_some_iff {φ : Type} [Flag φ] [InCapitals φ] (noun : String) {s : String} {f : φ} :
    Named.ofName? (capitals (trimmed s)) = some f ↔ Spells (Vocabulary.flags φ noun) s f := by
  unfold Named.ofName? Spells
  constructor
  · intro h
    have hname : Named.name f = capitals (trimmed s) := by simpa using List.find?_some h
    have hfolded : folded (trimmed s) = folded (Named.name f) := by
      rw [hname, Text.folded_capitals]
    exact ⟨Named.name f, List.mem_map_of_mem (List.mem_of_find?_eq_some h), hfolded⟩
  · intro h
    obtain ⟨w, hw, hs⟩ := h
    obtain ⟨g, hg, heq⟩ := List.mem_map.1 hw
    obtain ⟨rfl, rfl⟩ := Prod.mk.inj heq
    have hname : Named.name g = capitals (trimmed s) := by
      rw [Text.capitals_congr hs, InCapitals.capital g hg]
    have hfound : (List.find? (fun a : φ => Named.name a == capitals (trimmed s))
        Named.all).isSome = true := by
      rw [List.find?_isSome]
      exact ⟨g, hg, by simp [hname]⟩
    obtain ⟨g', hg'⟩ := Option.isSome_iff_exists.1 hfound
    have hname' : Named.name g' = capitals (trimmed s) := by simpa using List.find?_some hg'
    have hsame := List.inj_on_of_nodup_map InCapitals.distinct (List.mem_of_find?_eq_some hg') hg
      (hname'.trans hname.symm)
    rw [hg', hsame]

theorem flagNamed_eq_ok {φ : Type} [Flag φ] [InCapitals φ] {noun : String} {p : Path} {s : String}
    {f : φ} : flagNamed noun p s = .ok f ↔ Spells (Vocabulary.flags φ noun) s f := by
  rw [← ofName?_eq_some_iff noun]
  unfold flagNamed
  cases (Named.ofName? (capitals (trimmed s)) : Option φ) <;> simp [pure_eq_ok]

theorem reads_spelled {v : Vocabulary α} (hv : Unambiguous v) : Reads (Reader.spelled v) (.token v) := by
  intro p j a
  unfold Reader.spelled Form.token
  rw [bind_eq_ok]
  simp only [reads_text p j _, lookUp_eq_ok hv]
  exact Iff.rfl

/-- A field that is a token is a string that spells it. -/
theorem holds_token_iff {v : Vocabulary α} {o : Entries} {key : String} {a : α} :
    Holds o key (.token v) a ↔ ∃ s, Holds o key .text s ∧ Spells v s a := by
  constructor
  · intro h
    obtain ⟨j, hj, s, hs, ha⟩ := h
    exact ⟨s, ⟨j, hj, hs⟩, ha⟩
  · intro h
    obtain ⟨s, ⟨j, hj, hs⟩, ha⟩ := h
    exact ⟨j, hj, s, hs, ha⟩

theorem reads_index : Reads Reader.index .index := by
  intro p j i
  cases j with
  | text s =>
    have htoken : ((trimmed s).toList = Template.token || Text.sameFolded (trimmed s) "i") = true ↔
        (trimmed s).toList = Template.token ∨ folded (trimmed s) = folded "i" := by
      rw [Bool.or_eq_true, decide_eq_true_iff, Text.sameFolded_iff]
    by_cases hs : (trimmed s).toList = Template.token ∨ folded (trimmed s) = folded "i"
    · have hread : Reader.index p (.text s) = .ok .iteration := if_pos (htoken.2 hs)
      rw [hread]
      cases i with
      | literal n => simp [Form.index, Form.word]
      | iteration => simpa [Form.index] using hs
    · have hread : Reader.index p (.text s) =
          .error ⟨p, .unknownWord "index token" (trimmed s)⟩ := if_neg (mt htoken.1 hs)
      rw [hread]
      cases i with
      | literal n => simp [Form.index, Form.word]
      | iteration => simpa [Form.index] using hs
  | _ =>
    show (Index.literal <$> Reader.word p _) = .ok i ↔ _
    rw [map_eq_ok]
    cases i with
    | literal n => simp [reads_word p _ _, Form.index]
    | iteration => simp [Form.index]

theorem mapM_eq_ok {f : α → Except ε β} {as : List α} {bs : List β} :
    as.mapM f = .ok bs ↔ List.Forall₂ (fun a b => f a = .ok b) as bs := by
  induction as generalizing bs with
  | nil =>
    rw [List.mapM_nil, pure_eq_ok, List.forall₂_nil_left_iff]
    exact eq_comm
  | cons a as ih =>
    simp only [List.mapM_cons, bind_eq_ok, pure_eq_ok, List.forall₂_cons_left_iff, ih]
    constructor
    · intro h
      obtain ⟨b, hb, bs', hbs', rfl⟩ := h
      exact ⟨b, bs', hb, hbs', rfl⟩
    · intro h
      obtain ⟨b, bs', hb, hbs', rfl⟩ := h
      exact ⟨b, hb, bs', hbs', rfl⟩

theorem items_eq_ok {p : Path} {j : Json} {items : List (Path × Json)} :
    Reader.items p j = .ok items ↔
      ∃ js, j = .array js ∧ items = js.mapIdx fun i j => (p.item i, j) := by
  cases j <;> simp [Reader.items, Reader.unexpected, pure, Except.pure, eq_comm]

theorem map_snd_items (p : Path) (as : List α) :
    (as.mapIdx fun i a => (p.item i, a)).map Prod.snd = as := by
  apply List.ext_getElem <;> simp

/-- A relation on items does not depend on their paths. -/
theorem forall₂_items {R : Json → α → Prop} {p : Path} {js : List Json} {as : List α} :
    List.Forall₂ (fun x a => R x.2 a) (js.mapIdx fun i j => (p.item i, j)) as ↔
      List.Forall₂ R js as := by
  conv_rhs => rw [← map_snd_items p js, List.forall₂_map_left_iff]

theorem Reads.list {read : Reader (Except Fault) α} {form : Form α} (h : Reads read form) :
    Reads (Reader.list read) (.list form) := by
  intro p j as
  unfold Reader.list Form.list
  rw [bind_eq_ok]
  simp only [items_eq_ok, mapM_eq_ok, h _ _ _]
  constructor
  · intro hok
    obtain ⟨items, ⟨js, rfl, rfl⟩, has⟩ := hok
    exact ⟨js, rfl, forall₂_items.1 has⟩
  · intro hform
    obtain ⟨js, rfl, has⟩ := hform
    exact ⟨_, ⟨js, rfl, rfl⟩, forall₂_items.2 has⟩

theorem exists_mem_of_forall₂ {R : α → β → Prop} {as : List α} {bs : List β}
    (h : List.Forall₂ R as bs) {b : β} (hb : b ∈ bs) : ∃ a ∈ as, R a b := by
  induction h with
  | nil => exact absurd hb List.not_mem_nil
  | cons hab _ ih =>
    rcases List.mem_cons.1 hb with rfl | hrest
    · exact ⟨_, List.mem_cons_self .., hab⟩
    · obtain ⟨a, ha, hR⟩ := ih hrest
      exact ⟨a, List.mem_cons_of_mem _ ha, hR⟩

/-- Two relations in a row, member by member. -/
theorem exists_forall₂_iff {γ : Type} {R : α → β → Prop} {S : β → γ → Prop} {as : List α}
    {cs : List γ} :
    (∃ bs, List.Forall₂ R as bs ∧ List.Forall₂ S bs cs) ↔
      List.Forall₂ (fun a c => ∃ b, R a b ∧ S b c) as cs := by
  constructor
  · intro h
    obtain ⟨bs, hR, hS⟩ := h
    induction hR generalizing cs with
    | nil =>
      cases hS
      exact .nil
    | cons hab _ ih =>
      cases hS with
      | cons hbc hS => exact .cons ⟨_, hab, hbc⟩ (ih hS)
  · intro h
    induction h with
    | nil => exact ⟨[], .nil, .nil⟩
    | cons hac _ ih =>
      obtain ⟨b, hab, hbc⟩ := hac
      obtain ⟨bs, hR, hS⟩ := ih
      exact ⟨b :: bs, .cons hab hR, .cons hbc hS⟩

theorem located_eq_ok {read : Reader (Except Fault) α} {p : Path} {j : Json} {x : Path × α} :
    Reader.located read p j = .ok x ↔ x.1 = p ∧ read p j = .ok x.2 := by
  unfold Reader.located
  rw [bind_eq_ok]
  simp only [pure_eq_ok]
  constructor
  · intro h
    obtain ⟨a, ha, rfl⟩ := h
    exact ⟨rfl, ha⟩
  · intro h
    obtain ⟨rfl, ha⟩ := h
    exact ⟨x.2, ha, rfl⟩

/-- The strings of an array, each with its path. -/
theorem texts_eq_ok {p : Path} {j : Json} {ws : List (Path × String)} :
    Reader.list (.located .text) p j = .ok ws ↔
      ∃ js, j = .array js ∧
        List.Forall₂ (fun x w => w.1 = x.1 ∧ x.2 = .text w.2)
          (js.mapIdx fun i j => (p.item i, j)) ws := by
  unfold Reader.list
  rw [bind_eq_ok]
  simp only [items_eq_ok, mapM_eq_ok, located_eq_ok, reads_text _ _ _]
  constructor
  · intro h
    obtain ⟨items, ⟨js, rfl, rfl⟩, hws⟩ := h
    exact ⟨js, rfl, hws⟩
  · intro h
    obtain ⟨js, rfl, hws⟩ := h
    exact ⟨_, ⟨js, rfl, rfl⟩, hws⟩

/-- What an array of strings stands for when each string stands for something. -/
theorem exists_texts_iff {S : String → α → Prop} {p : Path} {j : Json} {as : List α} :
    (∃ ws : List (Path × String), Reader.list (.located .text) p j = .ok ws ∧
        List.Forall₂ (fun w a => S w.2 a) ws as) ↔
      Form.list (fun j a => ∃ s, j = .text s ∧ S s a) j as := by
  simp only [texts_eq_ok]
  constructor
  · intro h
    obtain ⟨ws, ⟨js, rfl, hws⟩, has⟩ := h
    have hboth := exists_forall₂_iff.1 ⟨ws, hws, has⟩
    refine ⟨js, rfl, forall₂_items.1 (hboth.imp fun x a hx => ?_)⟩
    obtain ⟨w, ⟨-, hw⟩, ha⟩ := hx
    exact ⟨w.2, hw, ha⟩
  · intro h
    obtain ⟨js, rfl, has⟩ := h
    have hitems := (forall₂_items (p := p)).2 has
    have hboth : List.Forall₂ (fun x a => ∃ w : Path × String, (w.1 = x.1 ∧ x.2 = .text w.2) ∧
        S w.2 a) (js.mapIdx fun i j => (p.item i, j)) as := by
      refine hitems.imp fun x a hx => ?_
      obtain ⟨s, hs, ha⟩ := hx
      exact ⟨(x.1, s), ⟨rfl, hs⟩, ha⟩
    obtain ⟨ws, hws, has'⟩ := exists_forall₂_iff.2 hboth
    exact ⟨ws, ⟨js, rfl, hws⟩, has'⟩

/-- Words looked up one after the other. -/
theorem foldlM_insert_eq_ok {φ : Type} [Flag φ] [InCapitals φ] {noun : String}
    {ws : List (Path × String)} {s s' : FlagSet φ} :
    ws.foldlM (fun s w => do return s.insert (← flagNamed noun w.1 w.2)) s = .ok s' ↔
      ∃ fs, List.Forall₂ (fun w f => Spells (Vocabulary.flags φ noun) w.2 f) ws fs ∧
        s' = fs.foldl .insert s := by
  induction ws generalizing s with
  | nil =>
    rw [List.foldlM_nil, pure_eq_ok]
    simp only [List.forall₂_nil_left_iff]
    constructor
    · intro h
      exact ⟨[], rfl, h.symm⟩
    · intro h
      obtain ⟨fs, rfl, h⟩ := h
      exact h.symm
  | cons w ws ih =>
    simp only [List.foldlM_cons, bind_eq_ok, pure_eq_ok, flagNamed_eq_ok,
      List.forall₂_cons_left_iff, ih]
    constructor
    · intro h
      obtain ⟨t, ⟨f, hf, rfl⟩, fs, hfs, hs⟩ := h
      exact ⟨f :: fs, ⟨f, fs, hf, hfs, rfl⟩, hs⟩
    · intro h
      obtain ⟨_, ⟨f, fs, hf, hfs, rfl⟩, hs⟩ := h
      exact ⟨_, ⟨f, hf, rfl⟩, fs, hfs, hs⟩

theorem reads_flags {φ : Type} [Flag φ] [InCapitals φ] {noun : String} :
    Reads (Reader.flags noun) (Form.flags (φ := φ) noun) := by
  intro p j s
  unfold Reader.flags Form.flags Form.token
  rw [bind_eq_ok]
  simp only [foldlM_insert_eq_ok, ← exists_texts_iff (p := p)]
  constructor
  · intro h
    obtain ⟨ws, hws, fs, hfs, hs⟩ := h
    exact ⟨fs, ⟨ws, hws, hfs⟩, hs⟩
  · intro h
    obtain ⟨fs, ⟨ws, hws, hfs⟩, hs⟩ := h
    exact ⟨ws, hws, fs, hfs, hs⟩

theorem forM_eq_ok {f : α → Except ε Unit} {as : List α} {u : Unit} :
    forM as f = .ok u ↔ ∀ a ∈ as, f a = .ok () := by
  induction as with
  | nil => simp [pure, Except.pure]
  | cons a as ih =>
    rw [List.forM_cons, bind_eq_ok, List.forall_mem_cons, ih]
    constructor
    · intro h
      obtain ⟨_, ha, has⟩ := h
      exact ⟨ha, has⟩
    · intro h
      exact ⟨⟨⟩, h.1, h.2⟩

/-- The listing has the position of each of its entries under the name of the entry. -/
def Listing.Tabulated (nameOf : α → String) (l : Listing α) : Prop :=
  Tabulates l.names (l.entries.map nameOf)

namespace Listing.Tabulated

variable {nameOf : α → String} {l l' : Listing α}

theorem empty : Tabulated nameOf {} := Tabulates.empty

/-- Entries leave no choice of the positions. -/
theorem unique (h : l.Tabulated nameOf) (h' : l'.Tabulated nameOf) (hentries : l.entries = l'.entries) :
    l = l' := by
  obtain ⟨names, entries⟩ := l
  obtain ⟨names', entries'⟩ := l'
  obtain rfl : entries = entries' := hentries
  have hnames : names = names' := Tabulates.unique h h'
  rw [hnames]

/-- An entry with a new name goes to the end. -/
theorem add (h : l.Tabulated nameOf) {a : α} (ha : l.names[nameOf a]? = none) :
    (l.add (nameOf a) a).Tabulated nameOf := by
  have hnew := Tabulates.insert h (Tabulates.getElem?_eq_none_iff h |>.1 ha)
  unfold Tabulated Listing.add
  rw [List.map_append, List.map_singleton]
  rwa [List.length_map] at hnew

end Listing.Tabulated

/-- What one entry adds to those before it. -/
def enlist (what place : String) (nameOf : α → String) (read : Reader (Except Fault) α)
    (before : Listing α) (x : Path × Json) : Except Fault (Listing α) := do
  let a ← read x.1 x.2
  match before.names[nameOf a]? with
  | some first => blame ⟨x.1.field "name", .duplicate what place (nameOf a) first⟩
  | none => return before.add (nameOf a) a

/-- Entries read one after the other, after others with names that they do not have. The positions are
those of the entries read so far. -/
theorem foldlM_distinct_eq_ok {read : Reader (Except Fault) α} {form : Form α} (h : Reads read form)
    {what place : String} {nameOf : α → String} {items : List (Path × Json)} {before l : Listing α}
    (hbefore : before.Tabulated nameOf) :
    items.foldlM (enlist what place nameOf read) before = .ok l ↔
      l.Tabulated nameOf ∧
        ∃ new, l.entries = before.entries ++ new ∧
          List.Forall₂ (fun x a => form x.2 a) items new := by
  induction items generalizing before with
  | nil =>
    rw [List.foldlM_nil, pure_eq_ok]
    simp only [List.forall₂_nil_left_iff]
    constructor
    · intro heq
      obtain rfl := heq
      exact ⟨hbefore, [], (List.append_nil _).symm, rfl⟩
    · intro hnew
      obtain ⟨hl, new, hentries, rfl⟩ := hnew
      exact hbefore.unique hl (by rw [hentries, List.append_nil])
  | cons x items ih =>
    simp only [List.foldlM_cons, enlist, bind_eq_ok, h x.1 x.2 _]
    constructor
    · intro hok
      obtain ⟨b, ⟨a, ha, hb⟩, hrest⟩ := hok
      cases hfind : before.names[nameOf a]? with
      | some first =>
        rw [hfind] at hb
        exact absurd hb nofun
      | none =>
        rw [hfind] at hb
        obtain rfl := pure_eq_ok.1 hb
        obtain ⟨hl, new, hentries, hnew⟩ := (ih (hbefore.add hfind)).1 hrest
        exact ⟨hl, a :: new, hentries.trans (List.append_cons _ _ _).symm, .cons ha hnew⟩
    · intro hall
      obtain ⟨hl, all, hentries, hitems⟩ := hall
      obtain ⟨a, new, ha, hnew, rfl⟩ := List.forall₂_cons_left_iff.1 hitems
      have hfind : before.names[nameOf a]? = none := by
        have hnodup := Tabulates.nodup hl
        rw [hentries, List.map_append, List.map_cons] at hnodup
        refine (Tabulates.getElem?_eq_none_iff hbefore).2 fun hmem => ?_
        exact (List.nodup_append.1 hnodup).2.2 _ hmem _ List.mem_cons_self rfl
      have hrest := (ih (hbefore.add hfind)).2
        ⟨hl, new, hentries.trans (List.append_cons _ _ _), hnew⟩
      refine ⟨before.add (nameOf a) a, ⟨a, ha, ?_⟩, hrest⟩
      rw [hfind]
      rfl

theorem Reads.distinct {read : Reader (Except Fault) α} {form : Form α} (h : Reads read form)
    (what place : String) (nameOf : α → String) :
    Reads (Reader.distinct what place nameOf read)
      (fun j l => Form.list form j l.entries ∧ l.Tabulated nameOf) := by
  intro p j l
  have hnone : Listing.Tabulated nameOf {} := .empty
  unfold Reader.distinct
  rw [bind_eq_ok]
  simp only [items_eq_ok]
  constructor
  · intro hok
    obtain ⟨items, ⟨js, rfl, rfl⟩, hok⟩ := hok
    obtain ⟨hl, new, hentries, hnew⟩ := (foldlM_distinct_eq_ok h hnone).1 hok
    obtain rfl : l.entries = new := hentries
    exact ⟨⟨js, rfl, forall₂_items.1 hnew⟩, hl⟩
  · intro hform
    obtain ⟨⟨js, rfl, has⟩, hl⟩ := hform
    exact ⟨_, ⟨js, rfl, rfl⟩, (foldlM_distinct_eq_ok h hnone).2
      ⟨hl, l.entries, rfl, forall₂_items.2 has⟩⟩

/-- No entries have no positions. -/
theorem holdsOr_distinct_iff {form : Form α} {nameOf : α → String} {o : Entries} {key : String}
    {l : Listing α} :
    HoldsOr o key (fun j l => Form.list form j l.entries ∧ l.Tabulated nameOf) {} l ↔
      HoldsOr o key (.list form) [] l.entries ∧ l.Tabulated nameOf := by
  constructor
  · intro h
    rcases h with ⟨j, hj, has, hl⟩ | ⟨hlacks, rfl⟩
    · exact ⟨.inl ⟨j, hj, has⟩, hl⟩
    · exact ⟨.inr ⟨hlacks, rfl⟩, .empty⟩
  · intro h
    obtain ⟨⟨j, hj, has⟩ | ⟨hlacks, hnone⟩, hl⟩ := h
    · exact .inl ⟨j, hj, has, hl⟩
    · exact .inr ⟨hlacks, hl.unique .empty hnone⟩

end FrameGraph.Document
