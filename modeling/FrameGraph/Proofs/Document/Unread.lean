import FrameGraph.Proofs.Document.Sight

namespace FrameGraph.Document

open Text (trimmed)

section

variable {sight : Sight} {e e' : Entries} {p : Path}

theorem alike_condition (h : SameAt (Seen.word sight) "condition" e e') :
    sight.Alike Eq (Fields.condition ⟨p, e⟩) (Fields.condition ⟨p, e'⟩) :=
  (respects_spelled Vocabulary.conditions).getD h _

theorem respects_repetition : Respects sight (Seen.repetition sight) Eq Reader.repetition := by
  intro p j j' h
  unfold Reader.repetition
  refine alike_object h fun e e' hm => ?_
  exact ((respects_spelled Vocabulary.repeatCounts).required (hm rfl)).map _

theorem alike_repetition (h : SameAt (Seen.repetition sight) "repeat" e e') :
    sight.Alike Eq (Fields.repetition ⟨p, e⟩) (Fields.repetition ⟨p, e'⟩) :=
  respects_repetition.getD h _

theorem alike_flags {φ : Type} [Flag φ] {key noun : String}
    (h : SameAt (Seen.list (Seen.word sight)) key e e') :
    sight.Alike Eq (Fields.flags ⟨p, e⟩ key noun : Except Fault (FlagSet φ))
      (Fields.flags ⟨p, e'⟩ key noun) :=
  (respects_flags noun).getD h _

theorem respects_extent : Respects sight (Seen.extent sight) Eq Reader.extent := by
  intro p j j' h
  unfold Reader.extent
  refine alike_object h fun e e' hm => ?_
  have hwidth : Fields.has ⟨p, e⟩ "width" = Fields.has ⟨p, e'⟩ "width" := has_of_seen (hm rfl)
  have hheight : Fields.has ⟨p, e⟩ "height" = Fields.has ⟨p, e'⟩ "height" := has_of_seen (hm rfl)
  have hsource : Fields.has ⟨p, e⟩ "size_source" = Fields.has ⟨p, e'⟩ "size_source" :=
    has_of_seen (hm rfl)
  refine (respects_text_word.required (hm rfl)).bind fun mode mode' hmode => ?_
  have hnothing : sight.Same (.extentTakesNothing (trimmed mode))
      (.extentTakesNothing (trimmed mode')) :=
    sight.same_of_word (fun s => .extentTakesNothing (trimmed s)) (fun _ _ => rfl) hmode
  have hunknown : sight.Same (.unknownWord "extent mode" (trimmed mode))
      (.unknownWord "extent mode" (trimmed mode')) :=
    sight.same_of_word (fun s => .unknownWord "extent mode" (trimmed s)) (fun _ _ => rfl) hmode
  -- modes that look alike take the same branch
  have hbranch (w : String) : Text.sameFolded (trimmed mode) w = Text.sameFolded (trimmed mode') w :=
    Text.sameFolded_congr (sight.folded_eq hmode) w
  simp only [hwidth, hheight, hsource, hbranch]
  refine .ite ?bare (.ite ?fixed (.ite ?square (.error _ hunknown)))
  case bare => exact .check hnothing (Sight.alike_refl _)
  case fixed =>
    refine .check (sight.same_refl _) ?_
    refine (respects_word.required (hm rfl)).next fun width => ?_
    refine (respects_word.required (hm rfl)).next fun height => ?_
    exact Sight.alike_refl _
  case square =>
    refine .check (sight.same_refl _) ?_
    refine ((respects_spelled Vocabulary.sizeSources).required (hm rfl)).next fun source => ?_
    exact Sight.alike_refl _

theorem alike_layers (hcount : SameAt Seen.plain "layers" e e')
    (hsource : SameAt (Seen.word sight) "layers_source" e e') :
    sight.Alike Eq (Fields.layers ⟨p, e⟩) (Fields.layers ⟨p, e'⟩) := by
  unfold Fields.layers
  refine (respects_word.optional_eq hcount).next fun count => ?_
  refine (respects_text_word.optional hsource).bind fun source source' hsource => ?_
  cases hsource with
  | none => exact Sight.alike_refl _
  | some hs =>
    cases count with
    | some n => exact .error _ (sight.same_refl _)
    | none => exact (alike_lookUp Vocabulary.layerCounts _ hs).map _

theorem alike_orOfImport {α : Type} {view : View} {key : String} {read : Reader (Except Fault) α}
    (hread : Respects sight view Eq read) (h : SameAt view key e e') (what : String)
    (isImport : Bool) (value : α) :
    sight.Alike Eq (Fields.orOfImport ⟨p, e⟩ key what read isImport value)
      (Fields.orOfImport ⟨p, e'⟩ key what read isImport value) := by
  unfold Fields.orOfImport
  refine (hread.optional_eq h).next fun a => ?_
  exact Sight.alike_refl _

theorem alike_image (hm : Matches (Seen.entry sight ++ Seen.image sight) e e') :
    sight.Alike Eq (Fields.image ⟨p, e⟩) (Fields.image ⟨p, e'⟩) := by
  unfold Fields.image
  refine (respects_text.optional_eq (hm rfl)).next fun importName => ?_
  refine (alike_orOfImport respects_extent (hm rfl) _ _ _).next fun extent => ?_
  refine (alike_layers (hm rfl) (hm rfl)).next fun layers => ?_
  refine (alike_orOfImport (respects_spelled _) (hm rfl) _ _ _).next fun format => ?_
  refine (alike_flags (hm rfl)).next fun usage => ?_
  exact Sight.alike_refl _

theorem alike_buffer (hm : Matches (Seen.entry sight ++ Seen.buffer sight) e e') :
    sight.Alike Eq (Fields.buffer ⟨p, e⟩) (Fields.buffer ⟨p, e'⟩) := by
  unfold Fields.buffer
  refine (respects_long.required (hm rfl)).next fun size => ?_
  refine .check (sight.same_refl _) ?_
  refine (alike_flags (hm rfl)).next fun usage => ?_
  exact Sight.alike_refl _

theorem typeOf?_congr (h : SameAt (Seen.word sight) "type" e e') :
    Seen.typeOf? (.object e) = Seen.typeOf? (.object e') := by
  unfold Seen.typeOf?
  dsimp only
  obtain ⟨hj, hj'⟩ | ⟨j, j', hj, hj', hseen⟩ := sameAt_cases h
  · rw [hj, hj']
  · rw [hj, hj']
    obtain ⟨s, t, rfl, rfl, hst⟩ | ⟨hno, hno', -⟩ := text_cases hseen
    · exact Vocabulary.resourceTypes.find?_congr (sight.folded_eq hst)
    · cases j with
      | text s => exact absurd rfl (hno s)
      | _ =>
        cases j' with
        | text s => exact absurd rfl (hno' s)
        | _ => rfl

theorem typeOf?_of_required {type : ResourceType}
    (h : Fields.required ⟨p, e⟩ "type" (Reader.spelled Vocabulary.resourceTypes) = .ok type) :
    Seen.typeOf? (.object e) = some type := by
  unfold Fields.required Fields.find? at h
  unfold Seen.typeOf?
  dsimp only
  cases hj : Json.present? e "type" with
  | none =>
    rw [hj] at h
    exact absurd h nofun
  | some j =>
    rw [hj] at h
    obtain ⟨s, hs, hfound⟩ := bind_eq_ok.1 h
    obtain rfl := (reads_text _ j s).1 hs
    unfold lookUp at hfound
    dsimp only
    cases hfind : Vocabulary.resourceTypes.find? s with
    | none =>
      rw [hfind] at hfound
      exact absurd hfound nofun
    | some type =>
      rw [hfind] at hfound
      exact congrArg some (Except.ok.inj hfound)

theorem alike_body {type : ResourceType}
    (hm : Matches (Seen.entry sight ++ Seen.body sight (some type)) e e') :
    sight.Alike Eq (Fields.body ⟨p, e⟩ type) (Fields.body ⟨p, e'⟩ type) := by
  cases type with
  | image => exact (alike_image hm).map _
  | buffer => exact (alike_buffer hm).map _

theorem respects_resource : Respects sight (Seen.resource sight) Eq Reader.resource := by
  intro p j j' h
  unfold Reader.resource
  obtain ⟨e, e', rfl, rfl⟩ | ⟨hj, -, hplain⟩ := object_cases h
  · have htype := typeOf?_congr (sameAt_of_seen h rfl rfl)
    -- The type that is read tells which fields the view of the body has.
    have hm : Matches (Seen.entry sight ++ Seen.body sight (Seen.typeOf? (.object e))) e e' := by
      refine matches_of_seen (h.trans ?_)
      rw [htype]
      rfl
    rw [object_bind, object_bind]
    refine (respects_name.required (hm rfl)).next fun name => ?_
    refine ((respects_spelled Vocabulary.resourceTypes).required (hm rfl)).next_of_ok
      fun type htype => ?_
    rw [typeOf?_of_required htype] at hm
    refine (alike_condition (hm rfl)).next fun condition => ?_
    refine (alike_repetition (hm rfl)).next fun repetition => ?_
    refine (alike_flags (hm rfl)).next fun flags => ?_
    refine (alike_body hm).next fun body => ?_
    exact Sight.alike_refl _
  · exact alike_no_object hj hplain

section

variable (declared : Listing Resource)

theorem alike_access (h : SameAt (Seen.word sight) "access" e e') (type : ResourceType) :
    sight.Alike Eq (Fields.access ⟨p, e⟩ type) (Fields.access ⟨p, e'⟩ type) := by
  cases type with
  | image => exact ((respects_spelled Vocabulary.imageAccesses).required h).map _
  | buffer => exact ((respects_spelled Vocabulary.bufferAccesses).required h).map _

theorem alike_used (himage : SameAt Seen.plain "image" e e')
    (hbuffer : SameAt Seen.plain "buffer" e e') :
    sight.Alike Eq (Fields.used ⟨p, e⟩) (Fields.used ⟨p, e'⟩) := by
  unfold Fields.used
  refine (respects_text.optional_eq himage).next fun image => ?_
  refine (respects_text.optional_eq hbuffer).next fun buffer => ?_
  exact Sight.alike_refl _

theorem alike_work (h : SameAt (Seen.word sight) "domain" e e') (type : PassType) :
    sight.Alike Eq (Fields.work ⟨p, e⟩ type) (Fields.work ⟨p, e'⟩ type) := by
  have hhas : Fields.has ⟨p, e⟩ "domain" = Fields.has ⟨p, e'⟩ "domain" := has_of_seen h
  have hother : ∀ w, sight.Alike Eq (Fields.work.other ⟨p, e⟩ w) (Fields.work.other ⟨p, e'⟩ w) := by
    intro w
    unfold Fields.work.other
    rw [hhas]
    exact Sight.alike_refl _
  cases type with
  | graphics => exact ((respects_spelled Vocabulary.domains).required h).map _
  | compute => exact hother .compute
  | transfer => exact hother .transfer

theorem respects_use : Respects sight (Seen.use sight) Eq (Reader.use declared) := by
  intro p j j' h
  unfold Reader.use
  refine alike_object h fun e e' hm => ?_
  refine (alike_used (hm rfl) (hm rfl)).next fun used => ?_
  refine (Sight.alike_refl _).next fun _ => ?_
  refine (alike_access (hm rfl) _).next fun access => ?_
  refine (alike_repetition (hm rfl)).next fun repetition => ?_
  refine (respects_index.optional_eq (hm rfl)).next fun binding => ?_
  refine (respects_index.optional_eq (hm rfl)).next fun arrayIndex => ?_
  exact Sight.alike_refl _

theorem color_of_length {js : List Json} (h : js.length ≠ 4) :
    Reader.color p (.array js) = .error ⟨p, .colorLength js.length⟩ := by
  unfold Reader.color
  split
  · rename_i heq
    obtain rfl := Json.array.inj heq
    exact absurd rfl h
  · rename_i heq
    obtain rfl := Json.array.inj heq
    rfl
  · rename_i hno
    exact absurd rfl (hno js)

theorem respects_color : Respects sight Seen.color Eq Reader.color := by
  intro p j j' h
  obtain ⟨js, js', rfl, rfl, hjs⟩ | ⟨hj, hj', hplain⟩ := list_cases h
  · have hlength : js.length = js'.length := by simpa using congrArg List.length hjs
    by_cases hfour : js.length = 4
    · obtain ⟨r, g, b, a, rfl⟩ := List.length_eq_four.1 hfour
      obtain ⟨r', g', b', a', rfl⟩ := List.length_eq_four.1 (hlength.symm.trans hfour)
      obtain ⟨hr, hg, hb, ha⟩ : Seen.plain r = Seen.plain r' ∧ Seen.plain g = Seen.plain g' ∧
          Seen.plain b = Seen.plain b' ∧ Seen.plain a = Seen.plain a' := by simpa using hjs
      unfold Reader.color
      refine (respects_single _ r r' hr).next fun red => ?_
      refine (respects_single _ g g' hg).next fun green => ?_
      refine (respects_single _ b b' hb).next fun blue => ?_
      refine (respects_single _ a a' ha).next fun alpha => ?_
      exact Sight.alike_refl _
    · rw [color_of_length hfour, color_of_length (hlength ▸ hfour), hlength]
      exact Sight.alike_refl _
  · have hread : ∀ j, (∀ js, j ≠ .array js) → Reader.color p j = .error ⟨p, .colorShape⟩ := by
      intro j hj
      cases j with
      | array js => exact absurd rfl (hj js)
      | _ => rfl
    rw [hread j hj, hread j' hj']
    exact Sight.alike_refl _

theorem respects_depthStencil : Respects sight Seen.depthStencil Eq Reader.depthStencil := by
  intro p j j' h
  obtain ⟨e, e', rfl, rfl⟩ | ⟨hj, -, hplain⟩ := object_cases h
  · have hm : Matches [("depth", Seen.plain), ("stencil", Seen.plain)] e e' := matches_of_seen h
    refine (respects_single.optional_eq (hm rfl)).next fun depth => ?_
    refine (respects_word.optional_eq (hm rfl)).next fun stencil => ?_
    exact Sight.alike_refl _
  · obtain rfl | ⟨js, js', rfl, rfl⟩ | ⟨o, -, rfl, -⟩ := plain_cases hplain
    · exact Sight.alike_refl _
    · exact Sight.alike_refl (.error ⟨p, .unexpected .object "an array"⟩)
    · exact absurd rfl (hj o)

theorem respects_slice : Respects sight (Seen.slice sight) Eq Reader.slice := by
  intro p j j' h
  unfold Reader.slice
  refine alike_object h fun e e' hm => ?_
  refine (respects_word.optional_eq (hm rfl)).next fun layerCount => ?_
  refine .check (sight.same_refl _) ?_
  refine (respects_word.optional_eq (hm rfl)).next fun mipLevel => ?_
  refine (respects_index.optional_eq (hm rfl)).next fun baseLayer => ?_
  exact Sight.alike_refl _

theorem alike_attachment {γ β : Type} {view : View} {clear : Reader (Except Fault) γ}
    {readOnly : Fields → Except Fault β} (hclear : Respects sight view Eq clear)
    (honly : sight.Alike Eq (readOnly ⟨p, e⟩) (readOnly ⟨p, e'⟩))
    (hm : Matches (Seen.attachment sight view) e e') :
    sight.Alike Eq (Reader.attachment declared clear readOnly ⟨p, e⟩)
      (Reader.attachment declared clear readOnly ⟨p, e'⟩) := by
  unfold Reader.attachment
  refine (respects_name.required (hm rfl)).next fun image => ?_
  refine (Sight.alike_refl _).next fun _ => ?_
  refine ((respects_spelled Vocabulary.loadOps).required (hm rfl)).next fun loadOp => ?_
  refine ((respects_spelled Vocabulary.storeOps).required (hm rfl)).next fun storeOp => ?_
  refine (hclear.optional_eq (hm rfl)).next fun clear => ?_
  refine honly.next fun only => ?_
  refine (respects_slice.optional_eq (hm rfl)).next fun slice => ?_
  exact Sight.alike_refl _

theorem respects_colorAttachment :
    Respects sight (Seen.object (Seen.attachment sight Seen.color)) Eq
      (Reader.colorAttachment declared) := by
  intro p j j' h
  unfold Reader.colorAttachment
  refine alike_object h fun e e' hm => ?_
  refine (alike_attachment declared respects_color ?_ hm).next fun a => Sight.alike_refl _
  refine (respects_boolean.optional_eq (hm rfl)).next fun only => ?_
  exact Sight.alike_refl _

theorem respects_depthAttachment :
    Respects sight (Seen.object (Seen.attachment sight Seen.depthStencil)) Eq
      (Reader.depthAttachment declared) := by
  intro p j j' h
  unfold Reader.depthAttachment
  refine alike_object h fun e e' hm => ?_
  refine (alike_attachment declared respects_depthStencil ?_ hm).next fun a => Sight.alike_refl _
  exact respects_boolean.getD (hm rfl) false

theorem respects_attachments :
    Respects sight (Seen.attachments sight) Eq (Reader.attachments declared) := by
  intro p j j' h
  unfold Reader.attachments
  refine alike_object h fun e e' hm => ?_
  refine ((respects_colorAttachment declared).listOrEmpty (hm rfl)).next fun colors => ?_
  refine ((respects_depthAttachment declared).optional_eq (hm rfl)).next fun depth => ?_
  exact Sight.alike_refl _

theorem respects_pass : Respects sight (Seen.pass sight) Eq (Reader.pass declared) := by
  intro p j j' h
  unfold Reader.pass
  refine alike_object h fun e e' hm => ?_
  refine (respects_name.required (hm rfl)).next fun name => ?_
  refine ((respects_spelled Vocabulary.passTypes).required (hm rfl)).next fun type => ?_
  refine (alike_condition (hm rfl)).next fun condition => ?_
  refine (alike_repetition (hm rfl)).next fun repetition => ?_
  refine (alike_flags (hm rfl)).next fun flags => ?_
  refine (alike_work (hm rfl) type).next fun work => ?_
  refine ((respects_use declared).listOrEmpty (hm rfl)).next fun reads => ?_
  refine ((respects_use declared).listOrEmpty (hm rfl)).next fun writes => ?_
  refine ((respects_attachments declared).optional_eq (hm rfl)).next fun attachments => ?_
  refine .check (sight.same_refl _) ?_
  refine (respects_name.required (hm rfl)).next fun execute => ?_
  exact Sight.alike_refl _

theorem respects_exports (type : ResourceType) :
    Respects sight (Seen.list Seen.plain) Eq (Reader.exports declared type) := by
  intro p j j' h
  unfold Reader.exports
  refine (respects_text.located_eq.list_eq p j j' h).next fun names => ?_
  exact Sight.alike_refl _

theorem respects_outputs : Respects sight Seen.outputs Eq (Reader.outputs declared) := by
  intro p j j' h
  unfold Reader.outputs
  refine alike_object h fun e e' hm => ?_
  refine ((respects_plain (fun _ _ _ => rfl) fun _ _ _ => rfl).optional_eq (hm rfl)).next
    fun present => ?_
  refine ((respects_exports declared .image).optional_eq (hm rfl)).next fun images => ?_
  refine ((respects_exports declared .buffer).optional_eq (hm rfl)).next fun buffers => ?_
  exact Sight.alike_refl _

end

theorem Respects.distinct {α : Type} {view : View} {read : Reader (Except Fault) α}
    (h : Respects sight view Eq read) (what place : String) (nameOf : α → String) :
    Respects sight (Seen.list view) Eq (Reader.distinct what place nameOf read) := by
  intro p j j' hseen
  unfold Reader.distinct
  refine (respects_items p j j' hseen).bind fun xs ys hxs => ?_
  refine Sight.alike_foldlM hxs (fun (before : Listing α) x y hxy => ?_) {}
  obtain ⟨q, j⟩ := x
  obtain ⟨q', j'⟩ := y
  obtain ⟨rfl, hj⟩ : q = q' ∧ view j = view j' := hxy
  exact (h q j j' hj).next fun a => Sight.alike_refl _

theorem respects_graph : Respects sight (Seen.graph sight) Eq Reader.graph := by
  intro p j j' h
  unfold Reader.graph
  refine alike_object h fun e e' hm => ?_
  refine (respects_word.required (hm rfl)).next fun version => ?_
  refine .check (sight.same_refl _) ?_
  refine (respects_text.required (hm rfl)).next fun name => ?_
  refine ((respects_resource.distinct _ _ _).optional_eq (hm rfl)).next fun resources => ?_
  refine (((respects_pass _).distinct _ _ _).optional_eq (hm rfl)).next fun passes => ?_
  refine ((respects_outputs _).optional_eq (hm rfl)).next fun outputs => ?_
  exact Sight.alike_refl _

end

end FrameGraph.Document

namespace FrameGraph

open Document

/-- Documents that are the same once null fields and fields that nobody reads are left out, at every
depth, stand for the same graph or have the same first fault. -/
theorem Graph.ignores_unread {d d' : Json} (h : Seen.graph .exact d = Seen.graph .exact d') :
    Graph.ofDocument d = Graph.ofDocument d' :=
  (respects_graph [] d d' h).eq_of_exact

namespace Graph

/-- One image, with nothing that is not read. -/
def bare : Json :=
  .object [("version", .natural 1), ("name", .text "bare"),
    ("resources", .array [.object [("name", .text "color"), ("type", .text "Image"),
      ("extent", .object [("mode", .text "window")]), ("format", .text "swapchain"),
      ("usage", .array [.text "sampled"])]])]

/-- The same image among fields that are null, of no meaning, or those of a buffer. -/
def cluttered : Json :=
  .object [("comment", .text "one image"), ("passes", .null), ("name", .text "bare"),
    ("resources", .array [.object [("size", .text "none"), ("name", .text "color"),
      ("type", .text "Image"), ("repeat", .null), ("layers", .null),
      ("extent", .object [("height", .null), ("mode", .text "window"), ("unit", .null)]),
      ("format", .text "swapchain"), ("usage", .array [.text "sampled"])]]),
    ("version", .natural 1), ("outputs", .null)]

theorem cluttered_reads_as_bare :
    Seen.graph .exact cluttered = Seen.graph .exact bare ∧
      Graph.ofDocument cluttered = Graph.ofDocument bare :=
  ⟨rfl, ignores_unread rfl⟩

end Graph

end FrameGraph
