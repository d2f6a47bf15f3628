import FrameGraph.Proofs.Document.Unread

namespace FrameGraph.Document

open Text (folded trimmed)

/-- Strings that spell one word. -/
def SameWord (s t : String) : Prop := folded (trimmed s) = folded (trimmed t)

/-- Strings that spell one index; case matters in the token of templates. -/
def SameIndex (s t : String) : Prop := trimmed s = trimmed t

instance (s t : String) : Decidable (SameWord s t) :=
  inferInstanceAs (Decidable (folded (trimmed s) = folded (trimmed t)))

instance (s t : String) : Decidable (SameIndex s t) :=
  inferInstanceAs (Decidable (trimmed s = trimmed t))

/-- Which values may stand in place of which. -/
abbrev Respelling := Json → Json → Prop

namespace Respelling

def text (Same : String → String → Prop) : Respelling := fun j j' =>
  j = j' ∨ ∃ s t, j = .text s ∧ j' = .text t ∧ Same s t

def word : Respelling := text SameWord

def index : Respelling := text SameIndex

/-- Any number of the items of an array is respelled. -/
def list (item : Respelling) : Respelling := fun j j' =>
  j = j' ∨ ∃ js js', j = .array js ∧ j' = .array js' ∧ List.Forall₂ item js js'

/-- How the fields of a key are respelled: those of other keys than the given ones stay as they are. -/
def ofKey (keys : List (String × Respelling)) (key : String) : Respelling :=
  (keys.lookup key).getD Eq

/-- Any number of the fields of an object is respelled. -/
def object (keys : List (String × Respelling)) : Respelling := fun j j' =>
  j = j' ∨ ∃ o o', j = .object o ∧ j' = .object o' ∧
    List.Forall₂ (fun f f' : String × Json => f.1 = f'.1 ∧ ofKey keys f.1 f.2 f'.2) o o'

theorem text_of_same {Same : String → String → Prop} {s t : String} (h : Same s t) :
    text Same (.text s) (.text t) :=
  .inr ⟨s, t, rfl, rfl, h⟩

theorem list_of_items {item : Respelling} {js js' : List Json} (h : List.Forall₂ item js js') :
    list item (.array js) (.array js') :=
  .inr ⟨js, js', rfl, rfl, h⟩

theorem object_of_fields {keys : List (String × Respelling)} {o o' : Entries}
    (h : List.Forall₂ (fun f f' : String × Json => f.1 = f'.1 ∧ ofKey keys f.1 f.2 f'.2) o o') :
    object keys (.object o) (.object o') :=
  .inr ⟨o, o', rfl, rfl, h⟩

def repetition : Respelling := object [("count_source", word)]

def extent : Respelling := object [("mode", word), ("size_source", word)]

/-- The words that resources and passes have in common. -/
def entry : List (String × Respelling) :=
  [("type", word), ("condition", word), ("repeat", repetition), ("flags", list word)]

def resource : Respelling :=
  object (entry ++
    [("extent", extent), ("layers_source", word), ("format", word), ("usage", list word)])

def use : Respelling :=
  object [("access", word), ("repeat", repetition), ("binding", index), ("array_index", index)]

def slice : Respelling := object [("base_layer", index)]

def attachment : Respelling := object [("load", word), ("store", word), ("slice", slice)]

def attachments : Respelling := object [("color", list attachment), ("depth", attachment)]

def pass : Respelling :=
  object (entry ++
    [("domain", word), ("reads", list use), ("writes", list use), ("attachments", attachments)])

/-- The second document is the first one with any number of its words and indices spelled in another
way. -/
def graph : Respelling := object [("resources", list resource), ("passes", list pass)]

end Respelling

/-- Words by what they spell, and causes by the kind of their errors. -/
def Sight.spelling : Sight where
  word s := String.ofList (folded (trimmed s))
  index := trimmed
  Same c c' := c.kind = c'.kind
  same_refl _ := rfl
  folded_eq h := String.ofList_injective h
  trimmed_eq h := h
  same_of_word _ hkind _ := hkind _ _

/-- A value that is respelled looks the same, and is not null unless it was. -/
def Respelling.Hides (r : Respelling) (view : View) : Prop :=
  ∀ j j', r j j' → j.isNull = j'.isNull ∧ view j = view j'

namespace Respelling

open Sight (spelling)

theorem hides_eq (view : View) : Hides Eq view := by
  rintro j _ rfl
  exact ⟨rfl, rfl⟩

theorem hides_text {Same : String → String → Prop} {look : String → String}
    (h : ∀ s t, Same s t → look s = look t) : (text Same).Hides (Seen.text look) := by
  rintro j j' (rfl | ⟨s, t, rfl, rfl, hst⟩)
  · exact ⟨rfl, rfl⟩
  · exact ⟨rfl, congrArg Json.text (h s t hst)⟩

theorem hides_word : word.Hides (Seen.word spelling) :=
  hides_text fun _ _ h => congrArg String.ofList h

theorem hides_index : index.Hides (Seen.index spelling) :=
  hides_text fun _ _ h => h

theorem Hides.list {r : Respelling} {view : View} (h : r.Hides view) :
    (list r).Hides (Seen.list view) := by
  rintro j j' (rfl | ⟨js, js', rfl, rfl, hjs⟩)
  · exact ⟨rfl, rfl⟩
  · refine ⟨rfl, congrArg Json.array ?_⟩
    induction hjs with
    | nil => rfl
    | cons hj _ ih => rw [List.map_cons, List.map_cons, (h _ _ hj).2, ih]

/-- Under a key whose respelling is hidden, respelled fields look the same. -/
theorem sameAt_of_fields {keys : List (String × Respelling)} {key : String} {view : View}
    {o o' : Entries} (h : (ofKey keys key).Hides view)
    (ho : List.Forall₂ (fun f f' : String × Json => f.1 = f'.1 ∧ ofKey keys f.1 f.2 f'.2) o o') :
    SameAt view key o o' := by
  unfold SameAt Json.present?
  induction ho with
  | nil => rfl
  | @cons f f' o o' hf _ ih =>
    obtain ⟨k, j⟩ := f
    obtain ⟨k', j'⟩ := f'
    obtain ⟨rfl, hj⟩ : k = k' ∧ ofKey keys k j j' := hf
    rw [List.find?_cons, List.find?_cons]
    by_cases hk : k = key
    · subst hk
      obtain ⟨hnull, hseen⟩ := h j j' hj
      dsimp only
      rw [← hnull]
      cases k == k && !j.isNull with
      | true => exact congrArg some hseen
      | false => exact ih
    · have hne : (k == key) = false := beq_false_of_ne hk
      simpa [hne] using ih

theorem hides_object {keys : List (String × Respelling)} {fields : List (String × View)}
    (h : ∀ x ∈ fields, (ofKey keys x.1).Hides x.2) : (object keys).Hides (Seen.object fields) := by
  rintro j j' (rfl | ⟨o, o', rfl, rfl, ho⟩)
  · exact ⟨rfl, rfl⟩
  · refine ⟨rfl, congrArg Json.object (List.filterMap_congr fun x hx => ?_)⟩
    have hsame : SameAt x.2 x.1 o o' := sameAt_of_fields (h x hx) ho
    have hfield := congrArg (Option.map (Prod.mk x.1)) hsame
    rwa [Option.map_map, Option.map_map] at hfield

theorem hides_repetition : repetition.Hides (Seen.repetition spelling) := by
  refine hides_object ?_
  simp only [List.forall_mem_cons]
  exact ⟨hides_word, List.forall_mem_nil _⟩

theorem hides_extent : extent.Hides (Seen.extent spelling) := by
  refine hides_object ?_
  simp only [List.forall_mem_cons]
  exact ⟨hides_word, hides_eq _, hides_eq _, hides_word, List.forall_mem_nil _⟩

/-- The common fields of resources and passes, of which the name is never respelled. -/
theorem hides_entry {rest : List (String × Respelling)} (h : rest.lookup "name" = none) :
    ∀ x ∈ Seen.entry spelling, (ofKey (entry ++ rest) x.1).Hides x.2 := by
  have hname : ofKey (entry ++ rest) "name" = Eq := congrArg (Option.getD · Eq) h
  simp only [Seen.entry, List.forall_mem_cons]
  exact ⟨hname ▸ hides_eq _, hides_word, hides_word, hides_repetition, hides_word.list,
    List.forall_mem_nil _⟩

theorem hides_resource : resource.Hides (Seen.resource spelling) := by
  have hbody (type : Option ResourceType) :
      resource.Hides (Seen.object (Seen.entry spelling ++ Seen.body spelling type)) := by
    refine hides_object (List.forall_mem_append.2 ⟨hides_entry rfl, ?_⟩)
    cases type with
    | none => exact List.forall_mem_nil _
    | some type =>
      cases type with
      | image =>
        simp only [Seen.body, Seen.image, List.forall_mem_cons]
        exact ⟨hides_eq _, hides_extent, hides_eq _, hides_word, hides_word, hides_word.list,
          List.forall_mem_nil _⟩
      | buffer =>
        simp only [Seen.body, Seen.buffer, List.forall_mem_cons]
        exact ⟨hides_eq _, hides_word.list, List.forall_mem_nil _⟩
  -- Respelling keeps the type, which tells how the body is looked at.
  have htype {j j' : Json} (h : resource j j') : Seen.typeOf? j = Seen.typeOf? j' := by
    obtain ⟨-, hseen⟩ := hbody none j j' h
    obtain ⟨e, e', rfl, rfl⟩ | ⟨hj, hj', -⟩ := object_cases hseen
    · exact typeOf?_congr (sameAt_of_seen hseen rfl rfl)
    · obtain rfl | ⟨o, o', rfl, -, -⟩ := h
      · rfl
      · exact absurd rfl (hj o)
  intro j j' h
  obtain ⟨hnull, hseen⟩ := hbody (Seen.typeOf? j) j j' h
  refine ⟨hnull, ?_⟩
  unfold Seen.resource
  rw [hseen, htype h]

theorem hides_use : use.Hides (Seen.use spelling) := by
  refine hides_object ?_
  simp only [List.forall_mem_cons]
  exact ⟨hides_eq _, hides_eq _, hides_word, hides_repetition, hides_index, hides_index,
    List.forall_mem_nil _⟩

theorem hides_slice : slice.Hides (Seen.slice spelling) := by
  refine hides_object ?_
  simp only [List.forall_mem_cons]
  exact ⟨hides_eq _, hides_eq _, hides_index, List.forall_mem_nil _⟩

theorem hides_attachment (clear : View) :
    attachment.Hides (Seen.object (Seen.attachment spelling clear)) := by
  refine hides_object ?_
  simp only [Seen.attachment, List.forall_mem_cons]
  exact ⟨hides_eq _, hides_word, hides_word, hides_eq _, hides_eq _, hides_slice,
    List.forall_mem_nil _⟩

theorem hides_attachments : attachments.Hides (Seen.attachments spelling) := by
  refine hides_object ?_
  simp only [List.forall_mem_cons]
  exact ⟨(hides_attachment _).list, hides_attachment _, List.forall_mem_nil _⟩

theorem hides_pass : pass.Hides (Seen.pass spelling) := by
  refine hides_object (List.forall_mem_append.2 ⟨hides_entry rfl, ?_⟩)
  simp only [List.forall_mem_cons]
  exact ⟨hides_word, hides_use.list, hides_use.list, hides_attachments, hides_eq _,
    List.forall_mem_nil _⟩

theorem hides_graph : graph.Hides (Seen.graph spelling) := by
  refine hides_object ?_
  simp only [List.forall_mem_cons]
  exact ⟨hides_eq _, hides_eq _, hides_resource.list, hides_pass.list, hides_eq _,
    List.forall_mem_nil _⟩

end Respelling

end FrameGraph.Document

namespace FrameGraph

open Document

namespace Graph

/-- A document that is respelled stands for the same graph, or for none; then its first fault is of the
same kind and at the same path. -/
theorem reads_respelled {d d' : Json} (h : Respelling.graph d d') :
    (∀ g, ofDocument d = .ok g ↔ ofDocument d' = .ok g) ∧
    ∀ f, ofDocument d = .error f → ∃ f', ofDocument d' = .error f' ∧
      f'.error.kind = f.error.kind ∧ f'.error.path = f.error.path := by
  obtain ⟨-, hseen⟩ := Respelling.hides_graph d d' h
  have halike : Sight.spelling.Alike Eq (ofDocument d) (ofDocument d') :=
    respects_graph [] d d' hseen
  generalize ofDocument d = x at halike
  generalize ofDocument d' = y at halike
  cases halike with
  | ok heq =>
    subst heq
    exact ⟨fun _ => Iff.rfl, nofun⟩
  | error p hkind =>
    refine ⟨fun g => ⟨nofun, nofun⟩, ?_⟩
    rintro _ ⟨⟩
    exact ⟨_, rfl, hkind.symm, rfl⟩

/-- A map that is drawn once for each cascade, in words as they are listed. -/
def neat : Json :=
  .object [("version", .natural 1), ("name", .text "cascades"),
    ("resources", .array [.object [("name", .text "cascades"), ("type", .text "image"),
      ("extent", .object [("mode", .text "square"), ("size_source", .text "shadow_map_size")]),
      ("layers_source", .text "shadow_cascade_count"), ("format", .text "D32_SFLOAT"),
      ("usage", .array [.text "DEPTH_STENCIL_ATTACHMENT", .text "SAMPLED"])]]),
    ("passes", .array [.object [("name", .text "cascade${i}"), ("type", .text "graphics"),
      ("domain", .text "SHADOW"),
      ("repeat", .object [("count_source", .text "shadow_cascade_count")]),
      ("attachments", .object [("depth", .object [("image", .text "cascades"),
        ("load", .text "CLEAR"), ("store", .text "STORE"),
        ("slice", .object [("base_layer", .text "${i}")])])]),
      ("execute", .text "draw")]])]

/-- The same map in other cases and among blanks, one of them a no-break space. -/
def sloppy : Json :=
  .object [("version", .natural 1), ("name", .text "cascades"),
    ("resources", .array [.object [("name", .text "cascades"), ("type", .text "Image "),
      ("extent", .object [("mode", .text "\tSQUARE"), ("size_source", .text "shadow_Map_size")]),
      ("layers_source", .text "Shadow_cascade_count\n"), ("format", .text "d32_sfloat"),
      ("usage", .array [.text "Depth_Stencil_Attachment", .text "\u00a0sampled"])]]),
    ("passes", .array [.object [("name", .text "cascade${i}"), ("type", .text "GRAPHICS"),
      ("domain", .text "shadow"),
      ("repeat", .object [("count_source", .text " shadow_cascade_count ")]),
      ("attachments", .object [("depth", .object [("image", .text "cascades"),
        ("load", .text "clear"), ("store", .text "Store"),
        ("slice", .object [("base_layer", .text " ${i} ")])])]),
      ("execute", .text "draw")]])]

open Respelling in
theorem sloppy_reads_as_neat :
    Respelling.graph neat sloppy ∧
    (∀ g, ofDocument neat = .ok g ↔ ofDocument sloppy = .ok g) ∧
    ∀ f, ofDocument neat = .error f → ∃ f', ofDocument sloppy = .error f' ∧
      f'.error.kind = f.error.kind ∧ f'.error.path = f.error.path := by
  have hword {s t : String} (h : SameWord s t) : word (.text s) (.text t) := text_of_same h
  have h : Respelling.graph neat sloppy := by
    refine object_of_fields (.cons ⟨rfl, rfl⟩ (.cons ⟨rfl, rfl⟩
      (.cons ⟨rfl, list_of_items (.cons ?resource .nil)⟩
        (.cons ⟨rfl, list_of_items (.cons ?pass .nil)⟩ .nil))))
    case resource =>
      refine object_of_fields (.cons ⟨rfl, rfl⟩ (.cons ⟨rfl, hword (by decide)⟩
        (.cons ⟨rfl, object_of_fields ?_⟩ (.cons ⟨rfl, hword (by decide)⟩
          (.cons ⟨rfl, hword (by decide)⟩ (.cons ⟨rfl, list_of_items ?_⟩ .nil))))))
      · exact .cons ⟨rfl, hword (by decide)⟩ (.cons ⟨rfl, hword (by decide)⟩ .nil)
      · exact .cons (hword (by decide)) (.cons (hword (by decide)) .nil)
    case pass =>
      refine object_of_fields (.cons ⟨rfl, rfl⟩ (.cons ⟨rfl, hword (by decide)⟩
        (.cons ⟨rfl, hword (by decide)⟩ (.cons ⟨rfl, object_of_fields ?_⟩
          (.cons ⟨rfl, object_of_fields (.cons ⟨rfl, object_of_fields ?_⟩ .nil)⟩
            (.cons ⟨rfl, rfl⟩ .nil))))))
      · exact .cons ⟨rfl, hword (by decide)⟩ .nil
      · exact .cons ⟨rfl, rfl⟩ (.cons ⟨rfl, hword (by decide)⟩ (.cons ⟨rfl, hword (by decide)⟩
          (.cons ⟨rfl, object_of_fields (.cons ⟨rfl, text_of_same (by decide)⟩ .nil)⟩ .nil)))
  exact ⟨h, reads_respelled h⟩

example : (ofDocument sloppy).toOption.map (fun g => g.passes.map (·.name)) =
    some ["cascade${i}"] := by
  decide +kernel

end Graph

end FrameGraph
