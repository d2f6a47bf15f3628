import FrameGraph.Catalog
import FrameGraph.Proofs.Log.Reading

namespace FrameGraph

/-- The file at the path can be read, and its text is parsed as a document of the graph. -/
def Folder.Holds (folder : Folder) (parse : Json.Parser) (path : String) (g : Graph) : Prop :=
  ∃ content text document, folder.read path = .ok content ∧ Text.decodeUtf8 content = .ok text ∧
    parse text = .ok document ∧ Graph.ofDocument document = .ok g

variable {parse : Json.Parser}

theorem Folder.Holds.unique {folder : Folder} {path : String} {g g' : Graph}
    (h : folder.Holds parse path g) (h' : folder.Holds parse path g') : g = g' := by
  obtain ⟨content, text, document, hread, hdecode, hparse, hgraph⟩ := h
  obtain ⟨content', text', document', hread', hdecode', hparse', hgraph'⟩ := h'
  obtain rfl := Except.ok.inj (hread.symm.trans hread')
  obtain rfl := Except.ok.inj (hdecode.symm.trans hdecode')
  obtain rfl := Except.ok.inj (hparse.symm.trans hparse')
  exact Except.ok.inj (hgraph.symm.trans hgraph')

namespace Graph

variable {σ : Type}

/-- Loading a document gives its graph, and fails if it has none. -/
theorem load_cases (document : Json) (s : σ) :
    (∃ g log, ofDocument document = .ok g ∧ load document s = ⟨s, log, .ok g⟩) ∨
    ((∀ g, ofDocument document ≠ .ok g) ∧ ∃ log e, load document s = ⟨s, log, .error e⟩) := by
  unfold load
  rw [← Document.logged_ofDocument]
  cases ofDocument document with
  | ok g => exact .inl ⟨g, _, rfl, rfl⟩
  | error f => exact .inr ⟨fun _ => nofun, _, _, rfl⟩

/-- Loading a text gives the graph of its document, and fails if there is none. -/
theorem loadText_cases (parse : Json.Parser) (text : String) (s : σ) :
    (∃ g document log, parse text = .ok document ∧ ofDocument document = .ok g ∧
      loadText parse text s = ⟨s, log, .ok g⟩) ∨
    ((∀ g document, parse text = .ok document → ofDocument document ≠ .ok g) ∧
      ∃ log e, loadText parse text s = ⟨s, log, .error e⟩) := by
  unfold loadText
  cases hparse : parse text with
  | error message => exact .inr ⟨fun _ _ => nofun, _, _, rfl⟩
  | ok document =>
    obtain ⟨g, log, hgraph, hload⟩ | ⟨hnone, log, e, hload⟩ := load_cases document s
    · exact .inl ⟨g, document, log, rfl, hgraph, hload⟩
    · refine .inr ⟨fun g document' hdocument => ?_, log, e, hload⟩
      obtain rfl := Except.ok.inj hdocument
      exact hnone g

/-- Loading a file gives the graph that it holds, and fails if it holds none; the state stays. -/
theorem loadFile_cases (parse : Json.Parser) (folder : Folder) (path : String) (s : σ) :
    (∃ g log, folder.Holds parse path g ∧ loadFile parse folder path s = ⟨s, log, .ok g⟩) ∨
    ((∀ g, ¬folder.Holds parse path g) ∧
      ∃ log e, loadFile parse folder path s = ⟨s, log, .error e⟩) := by
  unfold loadFile
  cases hread : folder.read path with
  | error f =>
    refine .inr ⟨fun g h => ?_, _, _, rfl⟩
    obtain ⟨content, text, document, hread', -⟩ := h
    exact absurd (hread.symm.trans hread') nofun
  | ok content =>
    dsimp only
    cases hdecode : Text.decodeUtf8 content with
    | error f =>
      refine .inr ⟨fun g h => ?_, _, _, rfl⟩
      obtain ⟨content', text, document, hread', hdecode', -⟩ := h
      obtain rfl := Except.ok.inj (hread.symm.trans hread')
      exact absurd (hdecode.symm.trans hdecode') nofun
    | ok text =>
      dsimp only
      obtain ⟨g, document, log, hparse, hgraph, htext⟩ | ⟨hnone, log, e, htext⟩ :=
        loadText_cases parse text s
      · rw [Action.bind_of_ok htext]
        exact .inl ⟨g, _, ⟨content, text, document, hread, hdecode, hparse, hgraph⟩, rfl⟩
      · rw [Action.bind_of_error htext]
        refine .inr ⟨fun g h => ?_, _, _, rfl⟩
        obtain ⟨content', text', document, hread', hdecode', hparse, hgraph⟩ := h
        obtain rfl := Except.ok.inj (hread.symm.trans hread')
        obtain rfl := Except.ok.inj (hdecode.symm.trans hdecode')
        exact hnone g document hparse hgraph

end Graph

namespace Catalog

variable {c : Catalog} {name : String}

theorem insert_of_taken (h : (c.shelved? name).isSome = true) (g : Graph) :
    ∃ log e, insert name g c = ⟨c, log, .error e⟩ := by
  unfold insert
  rw [Action.bind_of_ok (Action.get_apply c), if_pos h]
  exact ⟨_, _, rfl⟩

theorem insert_of_free (h : c.shelved? name = none) (g : Graph) :
    insert name g c = ⟨c.put name { graph := g }, [], .ok g⟩ := by
  have hfree : ¬(c.shelved? name).isSome = true := by simp [h]
  unfold insert
  rw [Action.bind_of_ok (Action.get_apply c), if_neg hfree]
  rfl

theorem load_of_taken (h : (c.shelved? name).isSome = true) (parse : Json.Parser) (folder : Folder)
    (path : String) : ∃ log e, load parse folder name path c = ⟨c, log, .error e⟩ := by
  unfold load
  rw [Action.bind_of_ok (Action.get_apply c), if_pos h]
  exact ⟨_, _, rfl⟩

/-- Loading under a free name puts there the graph that the file holds, or fails. -/
theorem load_cases_of_free (h : c.shelved? name = none) (parse : Json.Parser) (folder : Folder)
    (path : String) :
    (∃ g log, folder.Holds parse path g ∧
      load parse folder name path c = ⟨c.put name { graph := g }, log, .ok g⟩) ∨
    ((∀ g, ¬folder.Holds parse path g) ∧
      ∃ log e, load parse folder name path c = ⟨c, log, .error e⟩) := by
  have hfree : ¬(c.shelved? name).isSome = true := by simp [h]
  have hload : load parse folder name path c =
      (Graph.loadFile parse folder path >>= insert name) c := by
    unfold load
    rw [Action.bind_of_ok (Action.get_apply c), if_neg hfree]
    rfl
  rw [hload]
  obtain ⟨g, log, hg, hfile⟩ | ⟨hnone, log, e, hfile⟩ := Graph.loadFile_cases parse folder path c
  · rw [Action.bind_of_ok hfile, insert_of_free h g]
    exact .inl ⟨g, _, hg, rfl⟩
  · rw [Action.bind_of_error hfile]
    exact .inr ⟨hnone, _, _, rfl⟩

theorem reload_of_absent (h : c.shelved? name = none) (parse : Json.Parser) (folder : Folder)
    (path : String) :
    reload parse folder name path c =
      ⟨c, [Action.errorEntry origin (unknown name)], .error (unknown name)⟩ := by
  have habsent : (c.shelved? name).isNone = true := by simp [h]
  unfold reload
  rw [Action.bind_of_ok (Action.get_apply c), if_pos habsent]
  rfl

/-- The warning after the error of a reload whose file has a fault. -/
def reloadFailed (name : String) : Entry where
  severity := .warn
  source := origin.source
  message := s!"Reload of RenderGraph '{name}' failed, keeping previous graph"

def reloaded (name : String) : Entry where
  severity := .info
  source := origin.source
  message := s!"Reloaded RenderGraph '{name}'"

/-- Reloading a name of the catalog loads the file, and then puts its graph there or warns. -/
theorem reload_of_stored (h : (c.shelved? name).isSome = true) (parse : Json.Parser) (folder : Folder)
    (path : String) :
    reload parse folder name path c =
      match Graph.loadFile parse folder path c with
      | ⟨t, log, .error e⟩ => ⟨t, log ++ [reloadFailed name], .error e⟩
      | ⟨_, log, .ok g⟩ => ⟨c.put name { graph := g }, log ++ [reloaded name], .ok g⟩ := by
  have hstored : ¬(c.shelved? name).isNone = true := by
    rw [Option.isNone_iff_eq_none]
    exact Option.isSome_iff_ne_none.1 h
  let warn (e : Error) : Action Catalog Graph := do
    Action.note origin .warn s!"Reload of RenderGraph '{name}' failed, keeping previous graph"
    Action.refuse e
  let store (g : Graph) : Action Catalog Graph := do
    Action.note origin .info s!"Reloaded RenderGraph '{name}'"
    Action.set (c.put name { graph := g })
    return g
  have hreload : reload parse folder name path c =
      (Action.orElse (Graph.loadFile parse folder path) warn >>= store) c := by
    unfold reload
    rw [Action.bind_of_ok (Action.get_apply c), if_neg hstored]
    rfl
  rw [hreload]
  rcases hfile : Graph.loadFile parse folder path c with ⟨t, log, e | g⟩
  · have hwarned : Action.orElse (Graph.loadFile parse folder path) warn c =
        ⟨t, log ++ [reloadFailed name], .error e⟩ := by
      simp only [Action.orElse, hfile]
      rfl
    exact Action.bind_of_error hwarned
  · have hfound : Action.orElse (Graph.loadFile parse folder path) warn c = ⟨t, log, .ok g⟩ := by
      simp only [Action.orElse, hfile]
    rw [Action.bind_of_ok hfound]
    rfl

/-- Reloading a name of the catalog puts there the graph that the file holds, never built, or fails. -/
theorem reload_cases_of_stored (h : (c.shelved? name).isSome = true) (parse : Json.Parser)
    (folder : Folder) (path : String) :
    (∃ g log, folder.Holds parse path g ∧
      reload parse folder name path c = ⟨c.put name { graph := g }, log, .ok g⟩) ∨
    ((∀ g, ¬folder.Holds parse path g) ∧
      ∃ log e, reload parse folder name path c = ⟨c, log, .error e⟩) := by
  rw [reload_of_stored h]
  obtain ⟨g, log, hg, hfile⟩ | ⟨hnone, log, e, hfile⟩ := Graph.loadFile_cases parse folder path c
  · rw [hfile]
    exact .inl ⟨g, _, hg, rfl⟩
  · rw [hfile]
    exact .inr ⟨hnone, _, _, rfl⟩

section Build

variable {σ ι β π ε : Type} (engine : Engine σ ι β π ε) (frame : Frame)
  (executors : String → Option ε) (s : σ)

theorem build_of_absent (h : c.shelved? name = none) :
    build engine name frame executors (c, s) =
      ⟨(c, s), [Action.errorEntry origin (unknown name)], .error (unknown name)⟩ := by
  unfold build
  rw [Action.bind_of_ok (Action.get_apply (c, s))]
  dsimp only
  rw [h]
  rfl

/-- Building a name of the catalog is building its graph; if that succeeds, the frame is put down. -/
theorem build_of_stored {x : Shelved} (h : c.shelved? name = some x) :
    build engine name frame executors (c, s) =
      ⟨(match (x.graph.build engine frame executors s).result with
          | .ok _ => c.put name { x with built := some frame }
          | .error _ => c, (x.graph.build engine frame executors s).state),
        (x.graph.build engine frame executors s).log,
        (x.graph.build engine frame executors s).result⟩ := by
  unfold build
  rw [Action.bind_of_ok (Action.get_apply (c, s))]
  dsimp only
  rw [h]
  rcases hbuild : x.graph.build engine frame executors s with ⟨s', log, e | stats⟩
  · have hfail : Action.onSecond (x.graph.build engine frame executors) (c, s) =
        ⟨(c, s'), log, .error e⟩ := by
      simp only [Action.onSecond, hbuild]
    dsimp only
    rw [Action.bind_of_error hfail]
    rfl
  · have hok : Action.onSecond (x.graph.build engine frame executors) (c, s) =
        ⟨(c, s'), log, .ok stats⟩ := by
      simp only [Action.onSecond, hbuild]
    dsimp only
    rw [Action.bind_of_ok hok, List.nil_append]
    show Outcome.mk _ (log ++ []) _ = _
    rw [List.append_nil]
    rfl

end Build

end Catalog

end FrameGraph
