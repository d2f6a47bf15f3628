import FrameGraph.Document.Graph
import FrameGraph.Folder
import FrameGraph.Text.Quoted
import FrameGraph.Text.Utf8

namespace FrameGraph

namespace Graph

open Document (Cause)

/-- Fails with a format error of the document as a whole. -/
def rejectText {σ α : Type} (reason : String) : Action σ α :=
  Action.fail Cause.loader ⟨.format, Document.Path.render [], reason⟩

/-- The graph of a document. Every fault is logged where it is found. -/
def load {σ : Type} (document : Json) : Action σ Graph := do
  let g ← Document.Reader.graph [] document
  Action.note Cause.loader .debug
    (s!"Parsed render graph '{g.name}': {g.resources.length} resources, " ++
      s!"{g.passes.length} passes, present = {Text.quoted? g.outputs.present}")
  return g

/-- The graph of a text. -/
def loadText {σ : Type} (parse : Json.Parser) (text : String) : Action σ Graph :=
  match parse text with
  | .error message => rejectText s!"invalid JSON: {message}"
  | .ok document => load document

/-- The graph of a file. -/
def loadFile {σ : Type} (parse : Json.Parser) (folder : Folder) (path : String) : Action σ Graph :=
  match folder.read path with
  | .error f => Action.fail Cause.loader ⟨.io, path, f.message⟩
  | .ok content =>
    match Text.decodeUtf8 content with
    | .error f => rejectText s!"'{path}' is not valid UTF-8: {f.message}"
    | .ok text => do
      let g ← loadText parse text
      Action.note Cause.loader .info
        (s!"Loaded render graph '{g.name}' from '{path}' ({g.resources.length} resources, " ++
          s!"{g.passes.length} passes)")
      return g

end Graph

end FrameGraph
