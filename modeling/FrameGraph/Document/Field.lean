import FrameGraph.Document.Reporting
import FrameGraph.Json.Basic

namespace FrameGraph.Document

/-- A way of reading a value that stands at a path; `m` says what becomes of a fault. -/
abbrev Reader (m : Type → Type) (α : Type) := Path → Json → m α

variable {m : Type → Type} [Monad m] [Reporting m]

namespace Reader

def unexpected {α : Type} (shape : Shape) : Reader m α :=
  fun p j => blame ⟨p, .unexpected shape j.kind⟩

/-- A natural that fits 64 bits. -/
def long : Reader m UInt64
  | _, .natural n => return n
  | p, j => unexpected .natural p j

/-- A natural that fits 32 bits. -/
def word : Reader m UInt32 := fun p j => do
  let n ← long p j
  if n.toNat < UInt32.size then return n.toUInt32 else blame ⟨p, .outOfRange n⟩

def text : Reader m String
  | _, .text s => return s
  | p, j => unexpected .string p j

def single : Reader m Single := fun p j =>
  match j.single? with
  | some x => return x
  | none => unexpected .number p j

def boolean : Reader m Bool
  | _, .boolean b => return b
  | p, j => unexpected .boolean p j

end Reader

/-- An object of the document and its path. -/
structure Fields where
  path : Path
  fields : List (String × Json)

namespace Fields

variable {α : Type}

/-- The path of a field, whether it is there or not. -/
def pathOf (o : Fields) (key : String) : Path := o.path.field key

def find? (o : Fields) (key : String) : Option Json := Json.present? o.fields key

def has (o : Fields) (key : String) : Bool := (o.find? key).isSome

/-- A field that must be there. -/
def required (o : Fields) (key : String) (read : Reader m α) : m α :=
  match o.find? key with
  | some j => read (o.pathOf key) j
  | none => blame ⟨o.pathOf key, .missing⟩

/-- A field that may be absent. -/
def optional (o : Fields) (key : String) (read : Reader m α) : m (Option α) :=
  match o.find? key with
  | some j => some <$> read (o.pathOf key) j
  | none => return none

theorem required_of_none {o : Fields} {key : String} (h : o.find? key = none) (read : Reader m α) :
    o.required key read = blame ⟨o.pathOf key, .missing⟩ := by
  simp [required, h]

theorem required_of_some {o : Fields} {key : String} {j : Json} (h : o.find? key = some j)
    (read : Reader m α) : o.required key read = read (o.pathOf key) j := by
  simp [required, h]

omit [Reporting m] in
theorem optional_of_none {o : Fields} {key : String} (h : o.find? key = none) (read : Reader m α) :
    o.optional key read = pure none := by
  simp [optional, h]

omit [Reporting m] in
theorem optional_of_some {o : Fields} {key : String} {j : Json} (h : o.find? key = some j)
    (read : Reader m α) : o.optional key read = some <$> read (o.pathOf key) j := by
  simp [optional, h]

end Fields

namespace Reader

variable {α : Type}

def object : Reader m Fields
  | p, .object fields => return ⟨p, fields⟩
  | p, j => unexpected .object p j

/-- The items of an array, each with its path. -/
def items : Reader m (List (Path × Json))
  | p, .array js => return js.mapIdx fun i j => (p.item i, j)
  | p, j => unexpected .array p j

/-- An array of values of one kind; the first item with a fault decides. -/
def list (read : Reader m α) : Reader m (List α) := fun p j => do
  (← items p j).mapM fun (p, j) => read p j

/-- A value of one kind and its path. -/
def located (read : Reader m α) : Reader m (Path × α) := fun p j => do return (p, ← read p j)

end Reader

/-- An array field, read as empty when it is absent. -/
def Fields.listOrEmpty {α : Type} (o : Fields) (key : String) (read : Reader m α) : m (List α) := do
  return (← o.optional key (Reader.list read)).getD []

end FrameGraph.Document
