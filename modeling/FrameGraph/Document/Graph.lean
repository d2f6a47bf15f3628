import FrameGraph.Document.Pass

namespace FrameGraph.Document.Reader

/-- Resources are read before passes and passes before outputs, each entry whole before the next one. -/
def graph {m : Type → Type} [Monad m] [Reporting m] : Reader m Graph := fun p j => do
  let o ← object p j
  let version ← o.required "version" word
  if version ≠ Graph.currentVersion then
    blame ⟨o.pathOf "version", .version version Graph.currentVersion⟩
  let name ← o.required "name" text
  let resources ← o.optional "resources" (distinct "resource" "resources" Resource.name resource)
  let resources := resources.getD {}
  let passes ← o.optional "passes" (distinct "pass" "passes" Pass.name (pass resources))
  let passes := passes.getD {}
  let outputs ← o.optional "outputs" (outputs resources)
  return {
    version, name, resources := resources.entries, passes := passes.entries,
    outputs := outputs.getD .none, resourceNames := resources.names, passNames := passes.names }

end FrameGraph.Document.Reader

namespace FrameGraph

/-- The graph that a document declares, or the first fault in it. -/
def Graph.ofDocument (document : Json) : Except Document.Fault Graph :=
  Document.Reader.graph [] document

end FrameGraph
