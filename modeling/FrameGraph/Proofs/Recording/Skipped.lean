import FrameGraph.Proofs.Plan.References
import FrameGraph.Proofs.Recording.Build

namespace FrameGraph

open Plan Build Document

variable {ε : Type} {document : Json} {g : Graph} {frame : Frame} {d : Pass} {n : UInt32}
  {ref : Reference} {r : Resource}

/-- What a pass refers to is provided in a build that succeeds. -/
theorem Graph.exists_provides {executors : String → Option ε} {s : Recording ε} {stats : Stats}
    (hbuild : (g.build Recording.engine frame executors s).result = .ok stats) (hd : d ∈ g.passes)
    (hn : n ∈ frame.iterations d.condition d.repetition) (href : ref ∈ d.references frame n) :
    ∃ r ∈ g.resources, r.Provides frame ref.type ref.name := by
  have hstopless := (build_isOk_iff s).1 ⟨stats, hbuild⟩
  have hprovided := ((g.stopless_plan frame executors).1 hstopless.1).2.1 d hd n hn
  exact Graph.mem_names_iff.1 ((provided_iff.1 hprovided).2 ref href)

/-- A build fails if a pass refers to a resource that the frame does not admit, unless another resource
provides the same name; then one of the two templates holds the token. -/
theorem Graph.build_fails_or_provides (hload : Graph.ofDocument document = .ok g) (hd : d ∈ g.passes)
    (hn : n ∈ frame.iterations d.condition d.repetition) (href : ref ∈ d.references frame n)
    (hr : r ∈ g.resources) (hname : r.name = ref.template)
    (hskipped : frame.admits r.condition = false) (executors : String → Option ε) (s : Recording ε) :
    (∃ e, (g.build Recording.engine frame executors s).result = .error e) ∨
      ∃ r' ∈ g.resources, r' ≠ r ∧ r'.Provides frame ref.type ref.name ∧
        (Template.HasToken r'.name ∨ Template.HasToken r.name) := by
  cases hbuild : (g.build Recording.engine frame executors s).result with
  | error e => exact .inl ⟨e, rfl⟩
  | ok stats =>
    obtain ⟨r', hr', hprovides⟩ := exists_provides hbuild hd hn href
    have hne : r' ≠ r := by
      rintro rfl
      exact absurd hprovides.admits (by simp [hskipped])
    have hnames : r'.name ≠ ref.template := fun hsame =>
      hne ((Graph.wellFormed_of_ofDocument hload).eq_of_name hr' hr (hsame.trans hname.symm))
    have htoken : Template.HasToken r'.name ∨ Template.HasToken ref.template := by
      obtain ⟨-, m, -, hexpand⟩ := hprovides
      exact Template.hasToken_of_expand_eq hnames hexpand
    exact .inr ⟨r', hr', hne, hprovides, hname ▸ htoken⟩

/-- An image for the editor alone. -/
def editorIds : Resource where
  name := "A0"
  condition := .editorEnabled
  repetition := .once
  flags := .empty
  body := .image
    { importName := some "swapchain", extent := .window, layers := .fixed 1, format := .swapchain
      usage := .empty }

/-- A pass that reads the image also without the editor. -/
def readIds : Pass where
  name := "p"
  work := .compute
  flags := .empty
  condition := .always
  repetition := .once
  reads :=
    [{ name := "A0", access := .image .sampled, repetition := .once, binding := none
       arrayIndex := none }]
  writes := []
  attachments := .none
  execute := "p"

/-- A graph in which nothing else provides the name. -/
def skippedIds : Graph where
  version := 1
  name := "skipped"
  resources := [editorIds]
  passes := [readIds]
  outputs := .none
  resourceNames := .positions ["A0"]
  passNames := .positions ["p"]

/-- A graph in which another image has the same name once its template is expanded. -/
def shadowedIds : Graph where
  version := 1
  name := "shadowed"
  resources := [editorIds, { editorIds with name := "A${i}", condition := .always }]
  passes := [readIds]
  outputs := .none
  resourceNames := .positions ["A0", "A${i}"]
  passNames := .positions ["p"]

theorem build_fails_skippedIds :
    Graph.ofDocument skippedIds.document = .ok skippedIds ∧
    ∃ e, (skippedIds.build Recording.engine {} (fun _ => some ()) {}).result = .error e := by
  have hload : Graph.ofDocument skippedIds.document = .ok skippedIds := by rfl
  have href : ⟨.image, "A0", 0⟩ ∈ readIds.references {} 0 := Pass.mem_references_iff.2
    (.inr (.inr ⟨_, List.mem_singleton_self _, 0, List.mem_singleton_self _, rfl⟩))
  refine ⟨hload, ?_⟩
  rcases Graph.build_fails_or_provides hload (List.mem_singleton_self readIds) (by decide) href
    (List.mem_singleton_self editorIds) rfl (by decide) (fun _ => some ()) {} with hfails | hprovides
  · exact hfails
  · obtain ⟨r', hr', hne, -⟩ := hprovides
    exact absurd (List.mem_singleton.1 hr') hne

/-- The build succeeds, with the other image in place of the one that the frame does not admit. -/
theorem build_succeeds_shadowedIds :
    Graph.ofDocument shadowedIds.document = .ok shadowedIds ∧ readIds ∈ shadowedIds.passes ∧
    0 ∈ ({} : Frame).iterations readIds.condition readIds.repetition ∧
    ⟨.image, "A0", 0⟩ ∈ readIds.references {} 0 ∧ editorIds ∈ shadowedIds.resources ∧
    ({} : Frame).admits editorIds.condition = false ∧
    (shadowedIds.build Recording.engine {} (fun _ => some ()) {}).result = .ok ⟨1, 0, 1, 1, 0⟩ := by
  have href : ⟨.image, "A0", 0⟩ ∈ readIds.references {} 0 := Pass.mem_references_iff.2
    (.inr (.inr ⟨_, List.mem_singleton_self _, 0, List.mem_singleton_self _, rfl⟩))
  exact ⟨by rfl, List.mem_singleton_self _, by decide, href, List.mem_cons_self .., by decide,
    by decide +kernel⟩

end FrameGraph
