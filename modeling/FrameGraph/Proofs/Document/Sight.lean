import FrameGraph.Proofs.Document.Reading

namespace FrameGraph.Document

open Text (Vocabulary folded trimmed)

/-- How words and indices are looked at. Words that look alike are spelled alike, and causes that differ
in nothing but such a word count as the same. -/
structure Sight where
  word : String → String
  index : String → String
  Same : Cause → Cause → Prop
  same_refl : ∀ c, Same c c
  folded_eq : ∀ {s t}, word s = word t → folded (trimmed s) = folded (trimmed t)
  trimmed_eq : ∀ {s t}, index s = index t → trimmed s = trimmed t
  same_of_word : ∀ {s t} (c : String → Cause), (∀ s t, (c s).kind = (c t).kind) →
    word s = word t → Same (c s) (c t)

/-- Words as they are spelled, and causes as they are. -/
def Sight.exact : Sight where
  word := id
  index := id
  Same := Eq
  same_refl := fun _ => rfl
  folded_eq := fun h => congrArg (fun s => folded (trimmed s)) h
  trimmed_eq := fun h => congrArg trimmed h
  same_of_word := fun c _ h => congrArg c h

/-- What is looked at in a value. -/
abbrev View := Json → Json

namespace Seen

/-- Nothing below the value. -/
def plain : View
  | .array _ => .array []
  | .object _ => .object []
  | j => j

/-- A string under a map, and nothing below any other value. -/
def text (look : String → String) : View
  | .text s => .text (look s)
  | j => plain j

def word (sight : Sight) : View := text sight.word

def index (sight : Sight) : View := text sight.index

/-- All items, null ones included. -/
def list (item : View) : View
  | .array js => .array (js.map item)
  | j => plain j

/-- Of an object the fields of the given keys that are not null, in the order of the keys. -/
def object (fields : List (String × View)) : View
  | .object o => .object (fields.filterMap fun (key, view) =>
      (Json.present? o key).map fun j => (key, view j))
  | j => plain j

section

variable (sight : Sight)

def repetition : View := object [("count_source", word sight)]

def extent : View :=
  object [("mode", word sight), ("width", plain), ("height", plain), ("size_source", word sight)]

/-- The fields that resources and passes have in common. -/
def entry : List (String × View) :=
  [("name", plain), ("type", word sight), ("condition", word sight), ("repeat", repetition sight),
    ("flags", list (word sight))]

def image : List (String × View) :=
  [("import", plain), ("extent", extent sight), ("layers", plain), ("layers_source", word sight),
    ("format", word sight), ("usage", list (word sight))]

def buffer : List (String × View) := [("size", plain), ("usage", list (word sight))]

/-- The type that an entry of the resources gives, if it gives one. -/
def typeOf? : Json → Option ResourceType
  | .object o =>
    match Json.present? o "type" with
    | some (.text s) => Vocabulary.resourceTypes.find? s
    | _ => none
  | _ => none

/-- The fields of a resource beside the common ones are those of its type. -/
def body : Option ResourceType → List (String × View)
  | some .image => image sight
  | some .buffer => buffer sight
  | none => []

def resource : View := fun j => object (entry sight ++ body sight (typeOf? j)) j

def use : View :=
  object [("image", plain), ("buffer", plain), ("access", word sight), ("repeat", repetition sight),
    ("binding", index sight), ("array_index", index sight)]

def slice : View :=
  object [("layer_count", plain), ("mip_level", plain), ("base_layer", index sight)]

def color : View := list plain

def depthStencil : View := object [("depth", plain), ("stencil", plain)]

def attachment (clear : View) : List (String × View) :=
  [("image", plain), ("load", word sight), ("store", word sight), ("clear", clear),
    ("read_only", plain), ("slice", slice sight)]

def attachments : View :=
  object [("color", list (object (attachment sight color))),
    ("depth", object (attachment sight depthStencil))]

def pass : View :=
  object (entry sight ++
    [("domain", word sight), ("reads", list (use sight)), ("writes", list (use sight)),
      ("attachments", attachments sight), ("execute", plain)])

def outputs : View :=
  object [("present", plain), ("export_images", list plain), ("export_buffers", list plain)]

/-- What is looked at in a document. -/
def graph : View :=
  object [("version", plain), ("name", plain), ("resources", list (resource sight)),
    ("passes", list (pass sight)), ("outputs", outputs)]

end

end Seen

variable {α β γ δ : Type}

/-- Related values, or faults at one place with causes that count as the same. -/
inductive Sight.Alike (sight : Sight) (R : α → β → Prop) : Except Fault α → Except Fault β → Prop where
  | ok {a : α} {b : β} (h : R a b) : Alike sight R (.ok a) (.ok b)
  | error (p : Path) {c c' : Cause} (h : sight.Same c c') :
      Alike sight R (.error ⟨p, c⟩) (.error ⟨p, c'⟩)

namespace Sight

variable {sight : Sight}

theorem alike_refl (x : Except Fault α) : sight.Alike Eq x x := by
  cases x with
  | error f => exact .error f.path (sight.same_refl f.cause)
  | ok a => exact .ok rfl

/-- What looks alike exactly is the same. -/
theorem Alike.eq_of_exact {x y : Except Fault α} (h : Sight.exact.Alike Eq x y) : x = y := by
  cases h with
  | ok h => exact congrArg _ h
  | error p h => exact congrArg (fun c => (.error ⟨p, c⟩ : Except Fault α)) h

theorem Alike.imp {R S : α → β → Prop} {x : Except Fault α} {y : Except Fault β}
    (h : sight.Alike R x y) (hRS : ∀ a b, R a b → S a b) : sight.Alike S x y := by
  cases h with
  | ok h => exact .ok (hRS _ _ h)
  | error p h => exact .error p h

theorem Alike.bind {R : α → β → Prop} {S : γ → δ → Prop} {x : Except Fault α} {y : Except Fault β}
    {f : α → Except Fault γ} {g : β → Except Fault δ} (h : sight.Alike R x y)
    (hfg : ∀ a b, R a b → sight.Alike S (f a) (g b)) : sight.Alike S (x >>= f) (y >>= g) := by
  cases h with
  | ok h => exact hfg _ _ h
  | error p h => exact .error p h

/-- What follows equal values. -/
theorem Alike.next {S : γ → δ → Prop} {x y : Except Fault α} {f : α → Except Fault γ}
    {g : α → Except Fault δ} (h : sight.Alike Eq x y) (hfg : ∀ a, sight.Alike S (f a) (g a)) :
    sight.Alike S (x >>= f) (y >>= g) :=
  h.bind fun a _ hab => hab ▸ hfg a

/-- What follows equal values, where it matters which ones they are. -/
theorem Alike.next_of_ok {S : γ → δ → Prop} {x y : Except Fault α} {f : α → Except Fault γ}
    {g : α → Except Fault δ} (h : sight.Alike Eq x y)
    (hfg : ∀ a, x = .ok a → sight.Alike S (f a) (g a)) : sight.Alike S (x >>= f) (y >>= g) := by
  cases h with
  | ok h => exact h ▸ hfg _ rfl
  | error p h => exact .error p h

theorem Alike.map {x y : Except Fault α} (h : sight.Alike Eq x y) (f : α → β) :
    sight.Alike Eq (f <$> x) (f <$> y) := by
  cases h with
  | ok h => exact .ok (congrArg f h)
  | error p h => exact .error p h

/-- What follows a check runs only if the check finds nothing. -/
theorem Alike.check {c : Prop} [Decidable c] {p : Path} {cause cause' : Cause}
    {f g : β → Except Fault α} {x y : Except Fault α} (hc : sight.Same cause cause')
    (h : sight.Alike Eq x y) :
    sight.Alike Eq (if c then blame ⟨p, cause⟩ >>= f else x)
      (if c then blame ⟨p, cause'⟩ >>= g else y) := by
  by_cases hif : c
  · rw [if_pos hif, if_pos hif]
    exact .error p hc
  · rw [if_neg hif, if_neg hif]
    exact h

theorem Alike.ite {c : Prop} [Decidable c] {R : α → β → Prop} {x x' : Except Fault α}
    {y y' : Except Fault β} (h : sight.Alike R x y) (h' : sight.Alike R x' y') :
    sight.Alike R (if c then x else x') (if c then y else y') := by
  by_cases hif : c
  · rw [if_pos hif, if_pos hif]
    exact h
  · rw [if_neg hif, if_neg hif]
    exact h'

theorem alike_mapM {R : α → β → Prop} {S : γ → δ → Prop} {f : α → Except Fault γ}
    {g : β → Except Fault δ} {as : List α} {bs : List β} (h : List.Forall₂ R as bs)
    (hfg : ∀ a b, R a b → sight.Alike S (f a) (g b)) :
    sight.Alike (List.Forall₂ S) (as.mapM f) (bs.mapM g) := by
  induction h with
  | nil => exact .ok .nil
  | cons hab _ ih =>
    rw [List.mapM_cons, List.mapM_cons]
    exact (hfg _ _ hab).bind fun c d hcd => ih.bind fun cs ds hcds => .ok (.cons hcd hcds)

theorem alike_foldlM {R : α → β → Prop} {f : γ → α → Except Fault γ} {g : γ → β → Except Fault γ}
    {as : List α} {bs : List β} (h : List.Forall₂ R as bs)
    (hfg : ∀ c a b, R a b → sight.Alike Eq (f c a) (g c b)) (c : γ) :
    sight.Alike Eq (as.foldlM f c) (bs.foldlM g c) := by
  induction h generalizing c with
  | nil => exact .ok rfl
  | cons hab _ ih =>
    rw [List.foldlM_cons, List.foldlM_cons]
    exact (hfg c _ _ hab).next ih

end Sight

/-- The reader reads values alike, wherever they stand, that look alike in the view. -/
def Respects (sight : Sight) (view : View) (R : α → α → Prop) (read : Reader (Except Fault) α) : Prop :=
  ∀ p j j', view j = view j' → sight.Alike R (read p j) (read p j')

section

variable {sight : Sight} {view : View} {R : α → α → Prop} {read : Reader (Except Fault) α} {p : Path}
  {j j' : Json}

/-- Values that look alike by their kind are the same, two arrays or two objects. -/
theorem plain_cases (h : Seen.plain j = Seen.plain j') :
    j = j' ∨ (∃ js js', j = .array js ∧ j' = .array js') ∨ ∃ o o', j = .object o ∧ j' = .object o' := by
  cases j with
  | array js =>
    cases j' with
    | array js' => exact .inr (.inl ⟨js, js', rfl, rfl⟩)
    | _ => exact absurd h nofun
  | object o =>
    cases j' with
    | object o' => exact .inr (.inr ⟨o, o', rfl, rfl⟩)
    | _ => exact absurd h nofun
  | _ =>
    cases j' with
    | array | object => exact absurd h nofun
    | _ => exact .inl h

/-- A reader of values that are no arrays and no objects respects the plain view. -/
theorem respects_plain (harray : ∀ p js js', read p (.array js) = read p (.array js'))
    (hobject : ∀ p o o', read p (.object o) = read p (.object o')) :
    Respects sight Seen.plain Eq read := by
  intro p j j' h
  obtain rfl | ⟨js, js', rfl, rfl⟩ | ⟨o, o', rfl, rfl⟩ := plain_cases h
  · exact Sight.alike_refl _
  · rw [harray p js js']
    exact Sight.alike_refl _
  · rw [hobject p o o']
    exact Sight.alike_refl _

theorem respects_text : Respects sight Seen.plain Eq Reader.text :=
  respects_plain (fun _ _ _ => rfl) fun _ _ _ => rfl

theorem respects_word : Respects sight Seen.plain Eq Reader.word :=
  respects_plain (fun _ _ _ => rfl) fun _ _ _ => rfl

theorem respects_long : Respects sight Seen.plain Eq Reader.long :=
  respects_plain (fun _ _ _ => rfl) fun _ _ _ => rfl

theorem respects_single : Respects sight Seen.plain Eq Reader.single :=
  respects_plain (fun _ _ _ => rfl) fun _ _ _ => rfl

theorem respects_boolean : Respects sight Seen.plain Eq Reader.boolean :=
  respects_plain (fun _ _ _ => rfl) fun _ _ _ => rfl

theorem respects_name : Respects sight Seen.plain Eq Reader.name :=
  respects_plain (fun _ _ _ => rfl) fun _ _ _ => rfl

/-- Values that look alike are strings that do, or look alike plainly and are no strings. -/
theorem text_cases {look : String → String} (h : Seen.text look j = Seen.text look j') :
    (∃ s t, j = .text s ∧ j' = .text t ∧ look s = look t) ∨
      (∀ s, j ≠ .text s) ∧ (∀ s, j' ≠ .text s) ∧ Seen.plain j = Seen.plain j' := by
  cases j with
  | text s =>
    cases j' with
    | text t => exact .inl ⟨s, t, rfl, rfl, Json.text.inj h⟩
    | _ => exact absurd h nofun
  | _ =>
    cases j' with
    | text => exact absurd h nofun
    | _ => exact .inr ⟨nofun, nofun, h⟩

/-- The same strings as far as words are looked at. -/
theorem respects_text_word :
    Respects sight (Seen.word sight) (fun s t => sight.word s = sight.word t) Reader.text := by
  intro p j j' h
  obtain ⟨s, t, rfl, rfl, hst⟩ | ⟨-, -, hplain⟩ := text_cases h
  · exact .ok hst
  · exact (respects_text p j j' hplain).imp fun _ _ => congrArg sight.word

theorem alike_lookUp {s t : String} (v : Vocabulary α) (p : Path) (h : sight.word s = sight.word t) :
    sight.Alike Eq (lookUp v p s) (lookUp v p t) := by
  unfold lookUp
  rw [v.find?_congr (sight.folded_eq h)]
  cases v.find? t with
  | some a => exact .ok rfl
  | none => exact .error p (sight.same_of_word (.unknownWord v.noun) (fun _ _ => rfl) h)

/-- Words that look alike have the same capitals, and so name the same flag or none. -/
theorem alike_flagNamed {φ : Type} [Flag φ] {s t : String} (noun : String) (p : Path)
    (h : sight.word s = sight.word t) :
    sight.Alike Eq (flagNamed noun p s : Except Fault φ) (flagNamed noun p t) := by
  unfold flagNamed
  rw [Text.capitals_congr (sight.folded_eq h)]
  cases (Named.ofName? (Text.capitals (trimmed t)) : Option φ) with
  | some f => exact .ok rfl
  | none => exact .error p (sight.same_of_word (.unknownWord noun) (fun _ _ => rfl) h)

theorem respects_spelled (v : Vocabulary α) :
    Respects sight (Seen.word sight) Eq (Reader.spelled v) :=
  fun p j j' h => (respects_text_word p j j' h).bind fun _ _ => alike_lookUp v p

theorem respects_index : Respects sight (Seen.index sight) Eq Reader.index := by
  intro p j j' h
  obtain ⟨s, t, rfl, rfl, hst⟩ | ⟨hj, hj', hplain⟩ := text_cases h
  · unfold Reader.index
    dsimp only
    rw [sight.trimmed_eq hst]
    exact Sight.alike_refl _
  · have hread : ∀ j, (∀ s, j ≠ .text s) → Reader.index p j = .literal <$> Reader.word p j := by
      intro j hj
      cases j with
      | text s => exact absurd rfl (hj s)
      | _ => rfl
    rw [hread j hj, hread j' hj']
    exact (respects_word p j j' hplain).map _

/-- Values that look alike are arrays of items that do, or look alike plainly and are no arrays. -/
theorem list_cases (h : Seen.list view j = Seen.list view j') :
    (∃ js js', j = .array js ∧ j' = .array js' ∧ js.map view = js'.map view) ∨
      (∀ js, j ≠ .array js) ∧ (∀ js, j' ≠ .array js) ∧ Seen.plain j = Seen.plain j' := by
  cases j with
  | array js =>
    cases j' with
    | array js' => exact .inl ⟨js, js', rfl, rfl, Json.array.inj h⟩
    | _ => exact absurd h nofun
  | _ =>
    cases j' with
    | array => exact absurd h nofun
    | _ => exact .inr ⟨nofun, nofun, h⟩

/-- Items at one place that look alike. -/
def SameItem (view : View) (x y : Path × Json) : Prop := x.1 = y.1 ∧ view x.2 = view y.2

theorem forall₂_sameItem {js js' : List Json} (h : js.map view = js'.map view) (place : Nat → Path) :
    List.Forall₂ (SameItem view) (js.mapIdx fun i j => (place i, j))
      (js'.mapIdx fun i j => (place i, j)) := by
  induction js generalizing js' place with
  | nil =>
    obtain rfl := List.map_eq_nil_iff.1 h.symm
    exact .nil
  | cons j js ih =>
    obtain ⟨j', js', rfl, hj, hjs⟩ := List.map_eq_cons_iff.1 h.symm
    rw [List.mapIdx_cons, List.mapIdx_cons]
    exact .cons ⟨rfl, hj.symm⟩ (ih hjs.symm fun i => place (i + 1))

theorem respects_items :
    Respects sight (Seen.list view) (List.Forall₂ (SameItem view)) Reader.items := by
  intro p j j' h
  obtain ⟨js, js', rfl, rfl, hjs⟩ | ⟨hj, hj', hplain⟩ := list_cases h
  · exact .ok (forall₂_sameItem hjs p.item)
  · obtain rfl | ⟨js, -, rfl, -⟩ | ⟨o, o', rfl, rfl⟩ := plain_cases hplain
    · cases j with
      | array js => exact absurd rfl (hj js)
      | _ => exact .error p (sight.same_refl _)
    · exact absurd rfl (hj js)
    · exact .error p (sight.same_refl _)

theorem Respects.list (h : Respects sight view R read) :
    Respects sight (Seen.list view) (List.Forall₂ R) (Reader.list read) := by
  intro p j j' hseen
  refine (respects_items p j j' hseen).bind fun xs ys hxs => Sight.alike_mapM hxs fun x y hxy => ?_
  obtain ⟨q, j⟩ := x
  obtain ⟨q', j'⟩ := y
  obtain ⟨rfl, hj⟩ : q = q' ∧ view j = view j' := hxy
  exact h q j j' hj

theorem Respects.list_eq (h : Respects sight view Eq read) :
    Respects sight (Seen.list view) Eq (Reader.list read) := by
  have hlist := h.list
  rwa [List.forall₂_eq_eq_eq] at hlist

theorem Respects.located (h : Respects sight view R read) :
    Respects sight view (fun x y => x.1 = y.1 ∧ R x.2 y.2) (Reader.located read) :=
  fun p j j' hseen => (h p j j' hseen).bind fun _ _ hab => .ok ⟨rfl, hab⟩

theorem Respects.located_eq (h : Respects sight view Eq read) :
    Respects sight view Eq (Reader.located read) :=
  fun p j j' hseen => (h p j j' hseen).next fun _ => Sight.alike_refl _

theorem respects_flags {φ : Type} [Flag φ] (noun : String) :
    Respects sight (Seen.list (Seen.word sight)) Eq
      (Reader.flags noun : Reader (Except Fault) (FlagSet φ)) := by
  intro p j j' h
  refine (respects_text_word.located.list p j j' h).bind fun ws ws' hws => ?_
  refine Sight.alike_foldlM hws (fun s w w' hw => ?_) FlagSet.empty
  obtain ⟨q, w⟩ := w
  obtain ⟨q', w'⟩ := w'
  obtain ⟨rfl, hw⟩ : q = q' ∧ sight.word w = sight.word w' := hw
  exact (alike_flagNamed noun q hw).next fun f => Sight.alike_refl _

/-- Both objects have a field of the key, and its values look alike, or neither has one. -/
def SameAt (view : View) (key : String) (e e' : Entries) : Prop :=
  (Json.present? e key).map view = (Json.present? e' key).map view

/-- So it is with all keys that are looked at. -/
def Matches (fields : List (String × View)) (e e' : Entries) : Prop :=
  ∀ {key view}, fields.lookup key = some view → SameAt view key e e'

section

variable {fields : List (String × View)} {e e' : Entries} {key : String}

/-- The view of an object tells what is looked at under each key. -/
theorem lookup_seen (hview : fields.lookup key = some view) :
    (fields.filterMap fun x => (Json.present? e x.1).map fun j => (x.1, x.2 j)).lookup key =
      (Json.present? e key).map view := by
  induction fields with
  | nil => exact absurd hview nofun
  | cons x fields ih =>
    obtain ⟨k, view'⟩ := x
    by_cases hkey : key = k
    · subst hkey
      obtain rfl : view' = view := by simpa using hview
      cases hj : Json.present? e key with
      | some j => simp [hj]
      | none =>
        rw [List.filterMap_cons_none (by simp [hj])]
        refine List.lookup_eq_none_iff.2 fun y hy => ?_
        obtain ⟨z, -, hz⟩ := List.mem_filterMap.1 hy
        obtain ⟨j, hj', rfl⟩ := Option.map_eq_some_iff.1 hz
        have hne : key ≠ z.1 := by
          intro heq
          rw [heq] at hj
          exact absurd (hj.symm.trans hj') nofun
        exact bne_iff_ne.2 hne
    · have hne : (key == k) = false := beq_false_of_ne hkey
      rw [List.lookup_cons, hne] at hview
      rw [← ih hview]
      cases hj : Json.present? e k with
      | none => rw [List.filterMap_cons_none (by simp [hj])]
      | some j => rw [List.filterMap_cons_some (by simp [hj]; rfl), List.lookup_cons, hne]

/-- Values that look alike are objects or look alike plainly and are no objects. -/
theorem object_cases {fields' : List (String × View)}
    (h : Seen.object fields j = Seen.object fields' j') :
    (∃ e e', j = .object e ∧ j' = .object e') ∨
      (∀ o, j ≠ .object o) ∧ (∀ o, j' ≠ .object o) ∧ Seen.plain j = Seen.plain j' := by
  cases j with
  | object o =>
    cases j' with
    | object o' => exact .inl ⟨o, o', rfl, rfl⟩
    | _ => exact absurd h nofun
  | _ =>
    cases j' with
    | object => exact absurd h nofun
    | _ => exact .inr ⟨nofun, nofun, h⟩

theorem sameAt_of_seen {fields' : List (String × View)}
    (h : Seen.object fields (.object e) = Seen.object fields' (.object e'))
    (hview : fields.lookup key = some view) (hview' : fields'.lookup key = some view) :
    SameAt view key e e' := by
  have hfields := congrArg (List.lookup key) (Json.object.inj h)
  exact (lookup_seen hview).symm.trans (hfields.trans (lookup_seen hview'))

theorem matches_of_seen (h : Seen.object fields (.object e) = Seen.object fields (.object e')) :
    Matches fields e e' :=
  fun hview => sameAt_of_seen h hview hview

/-- What is no object is refused by its kind. -/
theorem alike_no_object {R : α → β → Prop} {f : Fields → Except Fault α}
    {g : Fields → Except Fault β} (hj : ∀ o, j ≠ .object o) (hplain : Seen.plain j = Seen.plain j') :
    sight.Alike R (Reader.object p j >>= f) (Reader.object p j' >>= g) := by
  obtain rfl | ⟨js, js', rfl, rfl⟩ | ⟨o, -, rfl, -⟩ := plain_cases hplain
  · cases j with
    | object o => exact absurd rfl (hj o)
    | _ => exact .error p (sight.same_refl _)
  · exact .error p (sight.same_refl _)
  · exact absurd rfl (hj o)

/-- What is read off an object whose looked-at fields match. -/
theorem alike_object {R : α → β → Prop} {f : Fields → Except Fault α} {g : Fields → Except Fault β}
    (h : Seen.object fields j = Seen.object fields j')
    (hfg : ∀ e e', Matches fields e e' → sight.Alike R (f ⟨p, e⟩) (g ⟨p, e'⟩)) :
    sight.Alike R (Reader.object p j >>= f) (Reader.object p j' >>= g) := by
  obtain ⟨e, e', rfl, rfl⟩ | ⟨hj, -, hplain⟩ := object_cases h
  · exact hfg e e' (matches_of_seen h)
  · exact alike_no_object hj hplain

section

variable (h : SameAt view key e e')

include h

theorem sameAt_cases : (Json.present? e key = none ∧ Json.present? e' key = none) ∨
    ∃ j j', Json.present? e key = some j ∧ Json.present? e' key = some j' ∧ view j = view j' := by
  unfold SameAt at h
  cases hj : Json.present? e key with
  | none =>
    rw [hj] at h
    exact .inl ⟨rfl, Option.map_eq_none_iff.1 h.symm⟩
  | some j =>
    rw [hj] at h
    obtain ⟨j', hj', hseen⟩ := Option.map_eq_some_iff.1 h.symm
    exact .inr ⟨j, j', rfl, hj', hseen.symm⟩

theorem has_of_seen : Fields.has ⟨p, e⟩ key = Fields.has ⟨p, e'⟩ key := by
  have hsome := congrArg Option.isSome h
  rwa [Option.isSome_map, Option.isSome_map] at hsome

theorem Respects.required (hread : Respects sight view R read) :
    sight.Alike R (Fields.required ⟨p, e⟩ key read) (Fields.required ⟨p, e'⟩ key read) := by
  unfold Fields.required Fields.find?
  dsimp only
  obtain ⟨hj, hj'⟩ | ⟨j, j', hj, hj', hseen⟩ := sameAt_cases h
  · rw [hj, hj']
    exact .error _ (sight.same_refl _)
  · rw [hj, hj']
    exact hread _ j j' hseen

theorem Respects.optional (hread : Respects sight view R read) :
    sight.Alike (Option.Rel R) (Fields.optional ⟨p, e⟩ key read) (Fields.optional ⟨p, e'⟩ key read) := by
  unfold Fields.optional Fields.find?
  dsimp only
  obtain ⟨hj, hj'⟩ | ⟨j, j', hj, hj', hseen⟩ := sameAt_cases h
  · rw [hj, hj']
    exact .ok .none
  · rw [hj, hj']
    exact (hread _ j j' hseen).bind fun _ _ hab => .ok (.some hab)

theorem Respects.optional_eq (hread : Respects sight view Eq read) :
    sight.Alike Eq (Fields.optional ⟨p, e⟩ key read) (Fields.optional ⟨p, e'⟩ key read) := by
  refine (hread.optional h).imp fun a b hab => ?_
  cases hab with
  | some hab => exact congrArg some hab
  | none => rfl

/-- What stands for an absent field. -/
theorem Respects.getD (hread : Respects sight view Eq read) (a : α) :
    sight.Alike Eq (do return (← Fields.optional ⟨p, e⟩ key read).getD a)
      (do return (← Fields.optional ⟨p, e'⟩ key read).getD a) :=
  (hread.optional_eq h).next fun _ => Sight.alike_refl _

end

theorem Respects.listOrEmpty (hread : Respects sight view Eq read)
    (h : SameAt (Seen.list view) key e e') :
    sight.Alike Eq (Fields.listOrEmpty ⟨p, e⟩ key read) (Fields.listOrEmpty ⟨p, e'⟩ key read) :=
  hread.list_eq.getD h []

end

end

end FrameGraph.Document
