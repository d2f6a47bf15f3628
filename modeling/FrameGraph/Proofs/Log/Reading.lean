import FrameGraph.Load

namespace FrameGraph.Document

open Text (Vocabulary capitals trimmed)

variable {σ α β γ : Type}

/-- The result as an action, which logs its fault once and fails with it. -/
def logged : Except Fault α → Action σ α
  | .ok a => pure a
  | .error f => Action.fail f.cause.origin f.error

@[simp]
theorem logged_pure (a : α) : logged (pure a) = (pure a : Action σ α) := rfl

@[simp]
theorem logged_error (f : Fault) : logged (.error f) = (blame f : Action σ α) :=
  (blame_eq_fail f).symm

/-- Nothing follows a fault. -/
@[simp]
theorem blame_bind (f : Fault) (g : α → Action σ β) : (blame f >>= g) = blame f := rfl

@[simp]
theorem map_blame (f : Fault) (g : α → β) : (g <$> blame f : Action σ β) = blame f := rfl

@[simp]
theorem logged_bind (x : Except Fault α) (f : α → Except Fault β) :
    logged (x >>= f) = (logged x >>= fun a => logged (f a) : Action σ β) := by
  cases x <;> rfl

@[simp]
theorem logged_map (f : α → β) (x : Except Fault α) :
    logged (f <$> x) = (f <$> logged x : Action σ β) := by
  cases x <;> rfl

@[simp]
theorem logged_ite (c : Prop) [Decidable c] (x y : Except Fault α) :
    logged (if c then x else y) = if c then (logged x : Action σ α) else logged y :=
  apply_ite logged c x y

theorem logged_mapM (f : α → Except Fault β) (as : List α) :
    logged (as.mapM f) = (as.mapM fun a => logged (f a) : Action σ (List β)) := by
  induction as with
  | nil => rfl
  | cons a as ih => simp [ih]

theorem logged_foldlM (f : β → α → Except Fault β) (as : List α) (b : β) :
    logged (as.foldlM f b) = (as.foldlM (fun b a => logged (f b a)) b : Action σ β) := by
  induction as generalizing b with
  | nil => rfl
  | cons a as ih => simp [ih]

theorem logged_forM (f : α → Except Fault Unit) (as : List α) :
    logged (forM as f) = (forM as fun a => logged (f a) : Action σ Unit) := by
  induction as with
  | nil => rfl
  | cons a as ih => simp [ih]

/-- The reader that logs says of every value what the other one says, and logs each fault once. -/
def Logs (read : Reader (Action σ) α) (read' : Reader (Except Fault) α) : Prop :=
  ∀ p j, logged (read' p j) = read p j

theorem logs_long : Logs (Reader.long : Reader (Action σ) UInt64) Reader.long := by
  intro p j
  cases j <;> rfl

theorem logs_text : Logs (Reader.text : Reader (Action σ) String) Reader.text := by
  intro p j
  cases j <;> rfl

theorem logs_boolean : Logs (Reader.boolean : Reader (Action σ) Bool) Reader.boolean := by
  intro p j
  cases j <;> rfl

theorem logs_single : Logs (Reader.single : Reader (Action σ) Single) Reader.single := by
  intro p j
  unfold Reader.single
  cases j.single? <;> rfl

theorem logs_object : Logs (Reader.object : Reader (Action σ) Fields) Reader.object := by
  intro p j
  cases j <;> rfl

theorem logs_items : Logs (Reader.items : Reader (Action σ) (List (Path × Json))) Reader.items := by
  intro p j
  cases j <;> rfl

theorem logs_word : Logs (Reader.word : Reader (Action σ) UInt32) Reader.word := by
  intro p j
  simp [Reader.word, logs_long p j]

theorem logs_name : Logs (Reader.name : Reader (Action σ) String) Reader.name := by
  intro p j
  simp [Reader.name, logs_text p j]

section

variable {read : Reader (Action σ) α} {read' : Reader (Except Fault) α}

theorem Logs.located (h : Logs read read') : Logs (Reader.located read) (Reader.located read') := by
  intro p j
  simp [Reader.located, h p j]

theorem Logs.list (h : Logs read read') : Logs (Reader.list read) (Reader.list read') := by
  intro p j
  simp only [Reader.list, logged_bind, logs_items p j, logged_mapM]
  exact bind_congr fun items => congrArg (items.mapM ·) (funext fun x => h x.1 x.2)

theorem Logs.required (h : Logs read read') (o : Fields) (key : String) :
    logged (o.required key read') = o.required key read := by
  unfold Fields.required
  cases o.find? key with
  | none => rfl
  | some j => exact h _ j

theorem Logs.optional (h : Logs read read') (o : Fields) (key : String) :
    logged (o.optional key read') = o.optional key read := by
  unfold Fields.optional
  cases o.find? key with
  | none => rfl
  | some j => rw [logged_map, h _ j]

theorem Logs.listOrEmpty (h : Logs read read') (o : Fields) (key : String) :
    logged (o.listOrEmpty key read') = o.listOrEmpty key read := by
  simp [Fields.listOrEmpty, h.list.optional]

theorem Logs.distinct (h : Logs read read') (what place : String) (nameOf : α → String) :
    Logs (Reader.distinct what place nameOf read) (Reader.distinct what place nameOf read') := by
  intro p j
  simp only [Reader.distinct, logged_bind, logs_items p j, logged_foldlM]
  refine bind_congr fun items => ?_
  congr 1
  funext before x
  rw [h x.1 x.2]
  refine bind_congr fun a => ?_
  cases before.names[nameOf a]? <;> rfl

theorem Logs.orOfImport (h : Logs read read') (o : Fields) (key what : String) (isImport : Bool)
    (value : α) :
    logged (o.orOfImport key what read' isImport value) =
      o.orOfImport key what read isImport value := by
  simp only [Fields.orOfImport, logged_bind, h.optional]
  refine bind_congr fun a => ?_
  cases a with
  | none => cases isImport <;> rfl
  | some a => rfl

end

theorem logged_lookUp (v : Vocabulary α) (p : Path) (s : String) :
    logged (lookUp v p s) = (lookUp v p s : Action σ α) := by
  unfold lookUp
  cases v.find? s <;> rfl

theorem logged_flagNamed [Flag α] (noun : String) (p : Path) (s : String) :
    logged (flagNamed noun p s) = (flagNamed noun p s : Action σ α) := by
  unfold flagNamed
  cases (Named.ofName? (capitals (trimmed s)) : Option α) <;> rfl

theorem logs_spelled (v : Vocabulary α) :
    Logs (Reader.spelled v : Reader (Action σ) α) (Reader.spelled v) := by
  intro p j
  simp [Reader.spelled, logs_text p j, logged_lookUp]

theorem logs_flags [Flag α] (noun : String) :
    Logs (Reader.flags noun : Reader (Action σ) (FlagSet α)) (Reader.flags noun) := by
  intro p j
  simp [Reader.flags, logs_text.located.list p j, logged_foldlM, logged_flagNamed]

theorem logs_index : Logs (Reader.index : Reader (Action σ) Index) Reader.index := by
  intro p j
  cases j with
  | text s => simp [Reader.index]
  | _ => simp [Reader.index, logs_word p _]

theorem logs_repetition : Logs (Reader.repetition : Reader (Action σ) Repetition) Reader.repetition := by
  intro p j
  simp [Reader.repetition, logs_object p j, (logs_spelled _).required]

theorem logs_extent : Logs (Reader.extent : Reader (Action σ) Extent) Reader.extent := by
  intro p j
  simp [Reader.extent, logs_object p j, logs_text.required, logs_word.required,
    (logs_spelled _).required]

namespace Fields

variable (o : Fields)

theorem logged_condition : logged o.condition = (o.condition : Action σ Condition) := by
  simp [condition, (logs_spelled _).optional]

theorem logged_repetition : logged o.repetition = (o.repetition : Action σ Repetition) := by
  simp [repetition, logs_repetition.optional]

theorem logged_flags [Flag α] (key noun : String) :
    logged (o.flags key noun) = (o.flags key noun : Action σ (FlagSet α)) := by
  simp [flags, (logs_flags noun).optional]

theorem logged_layers : logged o.layers = (o.layers : Action σ Layers) := by
  simp only [layers, logged_bind, logs_word.optional, logs_text.optional]
  refine bind_congr fun count => bind_congr fun source => ?_
  cases count <;> cases source <;> simp [logged_lookUp]

theorem logged_image : logged o.image = (o.image : Action σ Image) := by
  simp [image, logs_text.optional, logs_extent.orOfImport, logged_layers, (logs_spelled _).orOfImport,
    logged_flags]

theorem logged_buffer : logged o.buffer = (o.buffer : Action σ Buffer) := by
  simp [buffer, logs_long.required, logged_flags]

theorem logged_body (type : ResourceType) :
    logged (o.body type) = (o.body type : Action σ ResourceBody) := by
  cases type <;> simp [body, logged_image, logged_buffer]

theorem logged_used : logged o.used = (o.used : Action σ (String × ResourceType)) := by
  simp only [used, logged_bind, logs_text.optional]
  refine bind_congr fun image => bind_congr fun buffer => ?_
  cases image <;> cases buffer <;> rfl

theorem logged_access (type : ResourceType) :
    logged (o.access type) = (o.access type : Action σ Access) := by
  cases type <;> simp [access, (logs_spelled _).required]

theorem logged_work (type : PassType) : logged (o.work type) = (o.work type : Action σ Work) := by
  cases type <;> simp [work, work.other, (logs_spelled _).required]

end Fields

open Fields

theorem logs_resource : Logs (Reader.resource : Reader (Action σ) Resource) Reader.resource := by
  intro p j
  simp [Reader.resource, logs_object p j, logs_name.required, (logs_spelled _).required,
    logged_condition, logged_repetition, logged_flags, logged_body]

section

variable (declared : Listing Resource)

theorem logged_expect (p : Path) (name : String) (type : ResourceType) :
    logged (expect declared p name type) = (expect declared p name type : Action σ Unit) := by
  unfold expect
  cases declared.names[name]? with
  | none => rfl
  | some i =>
    dsimp only
    cases declared.entries[i]? with
    | none => rfl
    | some r => exact logged_ite _ _ _

theorem logs_use : Logs (Reader.use declared : Reader (Action σ) Use) (Reader.use declared) := by
  intro p j
  simp [Reader.use, logs_object p j, logged_used, logged_expect, logged_access, logged_repetition,
    logs_index.optional]

theorem logs_color : Logs (Reader.color : Reader (Action σ) Color) Reader.color := by
  intro p j
  unfold Reader.color
  split <;> simp [logs_single _ _]

theorem logs_depthStencil :
    Logs (Reader.depthStencil : Reader (Action σ) DepthStencil) Reader.depthStencil := by
  intro p j
  simp [Reader.depthStencil, logs_single p j, logs_object p j, logs_single.optional,
    logs_word.optional]

theorem logs_slice : Logs (Reader.slice : Reader (Action σ) Slice) Reader.slice := by
  intro p j
  simp [Reader.slice, logs_object p j, logs_word.optional, logs_index.optional]

/-- An attachment is read with the same reports if its clear value and `read_only` are. -/
theorem logged_attachment {clear : Reader (Action σ) γ} {clear' : Reader (Except Fault) γ}
    (hclear : Logs clear clear') {readOnly : Fields → Action σ β}
    {readOnly' : Fields → Except Fault β} (honly : ∀ o, logged (readOnly' o) = readOnly o)
    (o : Fields) :
    logged (Reader.attachment declared clear' readOnly' o) =
      Reader.attachment declared clear readOnly o := by
  simp [Reader.attachment, logs_name.required, logged_expect, (logs_spelled _).required,
    hclear.optional, honly, logs_slice.optional]

theorem logs_colorAttachment :
    Logs (Reader.colorAttachment declared : Reader (Action σ) (Attachment Color))
      (Reader.colorAttachment declared) := by
  intro p j
  simp only [Reader.colorAttachment, logged_bind, logs_object p j]
  refine bind_congr fun o => congr (congrArg Bind.bind ?_) rfl
  exact logged_attachment declared logs_color (fun o => by simp [logs_boolean.optional]) o

theorem logs_depthAttachment :
    Logs (Reader.depthAttachment declared : Reader (Action σ) DepthAttachment)
      (Reader.depthAttachment declared) := by
  intro p j
  simp only [Reader.depthAttachment, logged_bind, logs_object p j]
  refine bind_congr fun o => congr (congrArg Bind.bind ?_) rfl
  exact logged_attachment declared logs_depthStencil (fun o => by simp [logs_boolean.optional]) o

theorem logs_attachments :
    Logs (Reader.attachments declared : Reader (Action σ) Attachments)
      (Reader.attachments declared) := by
  intro p j
  simp [Reader.attachments, logs_object p j, (logs_colorAttachment declared).listOrEmpty,
    (logs_depthAttachment declared).optional]

theorem logs_pass : Logs (Reader.pass declared : Reader (Action σ) Pass) (Reader.pass declared) := by
  intro p j
  simp [Reader.pass, logs_object p j, logs_name.required, (logs_spelled _).required,
    logged_condition, logged_repetition, logged_flags, logged_work,
    (logs_use declared).listOrEmpty, (logs_attachments declared).optional]

theorem logs_exports (type : ResourceType) :
    Logs (Reader.exports declared type : Reader (Action σ) (List String))
      (Reader.exports declared type) := by
  intro p j
  simp [Reader.exports, logs_text.located.list p j, logged_forM, logged_expect]

theorem logs_outputs :
    Logs (Reader.outputs declared : Reader (Action σ) Outputs) (Reader.outputs declared) := by
  intro p j
  have hpresent : Logs (fun p j => do
      let name ← Reader.text p j
      expect declared p name .image
      return name : Reader (Action σ) String) (fun p j => do
        let name ← Reader.text p j
        expect declared p name .image
        return name) := by
    intro p j
    simp [logs_text p j, logged_expect]
  simp only [Reader.outputs, logged_bind, logs_object p j, hpresent.optional,
    (logs_exports declared _).optional, logged_pure]

end

theorem logs_graph : Logs (Reader.graph : Reader (Action σ) Graph) Reader.graph := by
  intro p j
  simp [Reader.graph, logs_object p j, logs_word.required, logs_text.required,
    (logs_resource.distinct _ _ _).optional, ((logs_pass _).distinct _ _ _).optional,
    (logs_outputs _).optional]

/-- The action that reads a document has the result of the document, with its fault in the log. -/
theorem logged_ofDocument (document : Json) :
    logged (Graph.ofDocument document) = (Reader.graph [] document : Action σ Graph) :=
  logs_graph [] document

end FrameGraph.Document
