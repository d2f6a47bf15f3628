import FrameGraph.Document.Field
import FrameGraph.Table

namespace FrameGraph.Document

/-- Entries in their order, and the position of each by its name. -/
structure Listing (α : Type) where
  names : Table Nat := ∅
  entries : List α := []

/-- The listing with one more entry. -/
def Listing.add {α : Type} (l : Listing α) (name : String) (a : α) : Listing α where
  names := l.names.insert name l.entries.length
  entries := l.entries ++ [a]

/-- Entries with distinct names. The name of an entry is looked up once the entry has been read;
`what` and `place` say in messages what the entries are and where. -/
def Reader.distinct {m : Type → Type} [Monad m] [Reporting m] {α : Type} (what place : String)
    (nameOf : α → String) (read : Reader m α) : Reader m (Listing α) := fun p j => do
  (← items p j).foldlM (fun before (p, j) => do
    let a ← read p j
    match before.names[nameOf a]? with
    | some first => blame ⟨p.field "name", .duplicate what place (nameOf a) first⟩
    | none => return before.add (nameOf a) a) {}

end FrameGraph.Document
