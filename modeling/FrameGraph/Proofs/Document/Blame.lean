import FrameGraph.Proofs.Document.Acceptance
import FrameGraph.Proofs.Document.Location

namespace FrameGraph.Document

open Text (Vocabulary)

variable {o : Fields} {declared : Listing Resource}

theorem locates_repetition : Locates Reader.repetition :=
  locates_object fun _ => (blamesField_required (locates_spelled _)).within.map _

theorem locates_extent : Locates Reader.extent := by
  have hself {o : Fields} {c : Cause} (hc : c.isPlain = true) :
      Within o.path (.object o.fields) ⟨o.path, c⟩ := within_self hc
  refine locates_object fun o => ?_
  refine (blamesField_required locates_text).within.bind fun mode _ => ?_
  refine .ite (fun _ => ?bare) fun _ => .ite (fun _ => ?fixed) fun _ => .ite (fun _ => ?square)
    fun _ => (blamesField_error rfl).within
  case bare => exact Blames.check (fun _ => hself rfl) fun _ => blames_ok _
  case fixed =>
    refine Blames.check (fun _ => .inr (below_field rfl)) fun _ => ?_
    refine (blamesField_required locates_word).within.bind fun width _ => ?_
    refine (blamesField_required locates_word).within.bind fun height _ => ?_
    exact Blames.check (fun _ => hself rfl) fun _ => blames_ok _
  case square =>
    refine Blames.check (fun _ => hself rfl) fun _ => ?_
    exact (blamesField_required (locates_spelled _)).within.bind fun source _ => blames_ok _

theorem blamesField_condition : BlamesField o o.condition :=
  (blamesField_optional (locates_spelled _)).bind fun _ _ => blames_ok _

theorem blamesField_repetition : BlamesField o o.repetition :=
  (blamesField_optional locates_repetition).bind fun _ _ => blames_ok _

theorem blamesField_flags {φ : Type} [Flag φ] (key noun : String) :
    BlamesField o (o.flags key noun : Except Fault (FlagSet φ)) :=
  (blamesField_optional (locates_flags noun)).bind fun _ _ => blames_ok _

theorem blamesField_layers : BlamesField o o.layers := by
  refine (blamesField_optional locates_word).bind fun count _ => ?_
  refine (blamesField_optional locates_text).bind fun source _ => ?_
  cases count with
  | none =>
    cases source with
    | none => exact blames_ok _
    | some s => exact (blamesField_lookUp Vocabulary.layerCounts s).map _
  | some n =>
    cases source with
    | none => exact Blames.check (fun _ => below_field rfl) fun _ => blames_ok _
    | some s => exact blamesField_error rfl

/-- What an image lacks unless it is imported is indeed absent or null. -/
theorem blamesField_orOfImport {α : Type} {read : Reader (Except Fault) α} (h : Locates read)
    (key what : String) (isImport : Bool) (value : α) : BlamesField o (o.orOfImport key what read isImport value) := by
  refine (blamesField_optional h).bind fun a ha => ?_
  cases a with
  | some a => exact blames_ok a
  | none =>
    have hlacks : Lacks o.fields key := by
      cases hfind : o.find? key with
      | none => exact Fields.find?_eq_none.1 hfind
      | some v =>
        rw [Fields.optional_of_some hfind] at ha
        obtain ⟨b, -, hb⟩ := map_eq_ok.1 ha
        exact absurd hb nofun
    by_cases hi : isImport = true
    · simp only [hi, if_true]
      exact blames_ok value
    · simp only [hi]
      exact blames_error (below_missing hlacks rfl)

theorem blamesField_image : BlamesField o o.image := by
  refine (blamesField_optional locates_text).bind fun importName _ => ?_
  refine (blamesField_orOfImport locates_extent _ _ _ _).bind fun extent _ => ?_
  refine blamesField_layers.bind fun layers _ => ?_
  refine (blamesField_orOfImport (locates_spelled _) _ _ _ _).bind fun format _ => ?_
  refine (blamesField_flags _ _).bind fun usage _ => ?_
  exact Blames.check (fun _ => below_field rfl) fun _ => blames_ok _

theorem blamesField_buffer : BlamesField o o.buffer := by
  refine (blamesField_required locates_long).bind fun size _ => ?_
  refine Blames.check (fun _ => below_field rfl) fun _ => ?_
  refine (blamesField_flags _ _).bind fun usage _ => ?_
  exact Blames.check (fun _ => below_field rfl) fun _ => blames_ok _

theorem blamesField_body (type : ResourceType) : BlamesField o (o.body type) := by
  cases type with
  | image => exact blamesField_image.map _
  | buffer => exact blamesField_buffer.map _

theorem locates_resource : Locates Reader.resource := by
  refine locates_object fun o => BlamesField.within ?_
  refine (blamesField_required locates_name).bind fun name _ => ?_
  refine (blamesField_required (locates_spelled _)).bind fun type _ => ?_
  refine blamesField_condition.bind fun condition _ => ?_
  refine blamesField_repetition.bind fun repetition _ => ?_
  refine (blamesField_flags _ _).bind fun flags _ => ?_
  exact (blamesField_body type).bind fun body _ => blames_ok _

/-- A name that is out of scope is blamed where it stands. -/
theorem blames_expect (hd : declared.Tabulated Resource.name) {P : Fault → Prop} {p : Path}
    (name : String) (type : ResourceType) (h : ∀ c : Cause, c.isPlain = true → P ⟨p, c⟩) :
    Blames P (expect declared p name type) := by
  unfold expect
  cases hfind : declared.names[name]? with
  | none => exact blames_error (h _ rfl)
  | some i =>
    -- the position was put down for an entry, so it is in range
    have hat : (declared.entries[i]?).map Resource.name = some name := by
      rw [← List.getElem?_map]
      exact (hd name i).1 hfind
    obtain ⟨r, hr, -⟩ := Option.map_eq_some_iff.1 hat
    dsimp only
    rw [hr]
    exact .ite (fun _ => blames_ok ()) fun _ => blames_error (h _ rfl)

theorem blamesField_expect (hd : declared.Tabulated Resource.name) (key name : String)
    (type : ResourceType) :
    BlamesField o (expect declared (o.pathOf key) name type) :=
  blames_expect hd name type fun _ hc => below_field hc

/-- A use that names no resource, or two of them, is blamed as a whole. -/
theorem blames_used : Blames (Within o.path (.object o.fields)) o.used := by
  refine (blamesField_optional locates_text).within.bind fun image _ => ?_
  refine (blamesField_optional locates_text).within.bind fun buffer _ => ?_
  cases image with
  | none =>
    cases buffer with
    | none => exact blames_self rfl
    | some name => exact blames_ok _
  | some name =>
    cases buffer with
    | none => exact blames_ok _
    | some name' => exact blames_self rfl

theorem blamesField_access (type : ResourceType) : BlamesField o (o.access type) := by
  cases type with
  | image => exact (blamesField_required (locates_spelled _)).map _
  | buffer => exact (blamesField_required (locates_spelled _)).map _

theorem locates_use (hd : declared.Tabulated Resource.name) : Locates (Reader.use declared) := by
  refine locates_object fun o => ?_
  refine blames_used.bind fun named _ => BlamesField.within ?_
  refine (blamesField_expect hd _ _ _).bind fun _ _ => ?_
  refine (blamesField_access _).bind fun access _ => ?_
  refine blamesField_repetition.bind fun repetition _ => ?_
  refine (blamesField_optional locates_index).bind fun binding _ => ?_
  exact (blamesField_optional locates_index).bind fun arrayIndex _ => blames_ok _

theorem locates_color : Locates Reader.color := by
  intro p j
  cases j with
  | array js =>
    match js with
    | [r, g, b, a] =>
      have hitem (i : Nat) (v : Json) (hv : [r, g, b, a][i]? = some v) :
          Blames (Within p (.array [r, g, b, a])) (Reader.single (p.item i) v) :=
        (locates_single (p.item i) v).mono fun _ hf => .inr (below_of_item hv hf)
      refine (hitem 0 r rfl).bind fun red _ => ?_
      refine (hitem 1 g rfl).bind fun green _ => ?_
      refine (hitem 2 b rfl).bind fun blue _ => ?_
      exact (hitem 3 a rfl).bind fun alpha _ => blames_ok _
    | [] | [_] | [_, _] | [_, _, _] | _ :: _ :: _ :: _ :: _ :: _ => exact blames_self rfl
  | _ => exact blames_self rfl

theorem locates_depthStencil : Locates Reader.depthStencil := by
  have hobject : Locates fun p j => Reader.object p j >>= fun o => do
      let depth ← o.optional "depth" Reader.single
      let stencil ← o.optional "stencil" Reader.word
      return { depth := depth.getD .one, stencil := stencil.getD 0 : DepthStencil } := by
    refine locates_object fun o => BlamesField.within ?_
    refine (blamesField_optional locates_single).bind fun depth _ => ?_
    exact (blamesField_optional locates_word).bind fun stencil _ => blames_ok _
  intro p j
  unfold Reader.depthStencil
  by_cases hj : j.isNumber = true
  · simp only [hj, if_true]
    exact (locates_single p j).bind fun depth _ => blames_ok _
  · simp only [hj]
    exact hobject p j

theorem locates_slice : Locates Reader.slice := by
  refine locates_object fun o => BlamesField.within ?_
  refine (blamesField_optional locates_word).bind fun layerCount _ => ?_
  refine Blames.check (fun _ => below_field rfl) fun _ => ?_
  refine (blamesField_optional locates_word).bind fun mipLevel _ => ?_
  exact (blamesField_optional locates_index).bind fun baseLayer _ => blames_ok _

theorem blamesField_attachment (hd : declared.Tabulated Resource.name) {γ β : Type}
    {clear : Reader (Except Fault) γ} (hclear : Locates clear)
    {readOnly : Fields → Except Fault β} (honly : BlamesField o (readOnly o)) :
    BlamesField o (Reader.attachment declared clear readOnly o) := by
  refine (blamesField_required locates_name).bind fun image _ => ?_
  refine (blamesField_expect hd _ _ _).bind fun _ _ => ?_
  refine (blamesField_required (locates_spelled _)).bind fun loadOp _ => ?_
  refine (blamesField_required (locates_spelled _)).bind fun storeOp _ => ?_
  refine (blamesField_optional hclear).bind fun clearValue _ => ?_
  refine honly.bind fun only _ => ?_
  exact (blamesField_optional locates_slice).bind fun slice _ => blames_ok _

theorem locates_colorAttachment (hd : declared.Tabulated Resource.name) :
    Locates (Reader.colorAttachment declared) := by
  refine locates_object fun o => BlamesField.within ?_
  refine (blamesField_attachment hd locates_color ?_).bind fun a _ => blames_ok _
  refine (blamesField_optional locates_boolean).bind fun readOnly _ => ?_
  cases readOnly with
  | none => exact blames_ok _
  | some b => exact blamesField_error rfl

theorem locates_depthAttachment (hd : declared.Tabulated Resource.name) :
    Locates (Reader.depthAttachment declared) := by
  refine locates_object fun o => BlamesField.within ?_
  refine (blamesField_attachment hd locates_depthStencil ?_).bind fun a _ => blames_ok _
  exact (blamesField_optional locates_boolean).bind fun readOnly _ => blames_ok _

theorem blamesField_listOrEmpty {α : Type} {read : Reader (Except Fault) α} (h : Locates read)
    (key : String) : BlamesField o (o.listOrEmpty key read) :=
  (blamesField_optional h.list).bind fun _ _ => blames_ok _

theorem locates_attachments (hd : declared.Tabulated Resource.name) :
    Locates (Reader.attachments declared) := by
  refine locates_object fun o => BlamesField.within ?_
  refine (blamesField_listOrEmpty (locates_colorAttachment hd) _).bind fun colors _ => ?_
  exact (blamesField_optional (locates_depthAttachment hd)).bind fun depth _ => blames_ok _

theorem blamesField_work (type : PassType) : BlamesField o (o.work type) := by
  have hother (w : Work) : BlamesField o (Fields.work.other o w) := by
    unfold Fields.work.other
    by_cases hd : o.has "domain" = true
    · simp only [hd, if_true]
      exact blamesField_error rfl
    · simp only [hd]
      exact blames_ok w
  cases type with
  | graphics => exact (blamesField_required (locates_spelled _)).map _
  | compute => exact hother .compute
  | transfer => exact hother .transfer

theorem locates_pass (hd : declared.Tabulated Resource.name) : Locates (Reader.pass declared) := by
  refine locates_object fun o => BlamesField.within ?_
  refine (blamesField_required locates_name).bind fun name _ => ?_
  refine (blamesField_required (locates_spelled _)).bind fun type _ => ?_
  refine blamesField_condition.bind fun condition _ => ?_
  refine blamesField_repetition.bind fun repetition _ => ?_
  refine (blamesField_flags _ _).bind fun flags _ => ?_
  refine (blamesField_work type).bind fun work _ => ?_
  refine (blamesField_listOrEmpty (locates_use hd) _).bind fun reads _ => ?_
  refine (blamesField_listOrEmpty (locates_use hd) _).bind fun writes _ => ?_
  refine (blamesField_optional (locates_attachments hd)).bind fun attachments _ => ?_
  refine Blames.check (fun _ => below_field rfl) fun _ => ?_
  exact (blamesField_required locates_name).bind fun execute _ => blames_ok _

theorem locates_exports (hd : declared.Tabulated Resource.name) (type : ResourceType) :
    Locates (Reader.exports declared type) := by
  intro p j
  refine (locates_text.located.list p j).bind fun names hnames => ?_
  refine (blames_forM fun w hw => ?_).bind fun _ _ => blames_ok _
  exact blames_expect hd w.2 type fun _ hc => within_of_mem_texts hnames hw hc

theorem locates_outputs (hd : declared.Tabulated Resource.name) :
    Locates (Reader.outputs declared) := by
  refine locates_object fun o => BlamesField.within ?_
  refine (blamesField_optional fun p j => ?_).bind fun present _ => ?_
  · refine (locates_text p j).bind fun name _ => ?_
    exact (blames_expect hd name .image fun _ hc => within_self hc).bind fun _ _ => blames_ok name
  · refine (blamesField_optional (locates_exports hd .image)).bind fun images _ => ?_
    exact (blamesField_optional (locates_exports hd .buffer)).bind fun buffers _ => blames_ok _

/-- What is read from the fields of an object is read from an object. -/
theorem exists_object_of_ok {α : Type} {p : Path} {j : Json} {g : Fields → Except Fault α} {a : α}
    (h : (Reader.object p j >>= g) = .ok a) : ∃ entries, j = .object entries := by
  obtain ⟨o, ho, -⟩ := bind_eq_ok.1 h
  exact ⟨o.fields, (object_eq_ok.1 ho).1⟩

/-- An entry with the name of an earlier one is blamed for its name; as it has been read, it is an
object. -/
theorem Locates.distinct {α : Type} {read : Reader (Except Fault) α} (h : Locates read)
    (hobject : ∀ p j a, read p j = .ok a → ∃ entries, j = .object entries) (what place : String)
    (nameOf : α → String) : Locates (Reader.distinct what place nameOf read) := by
  intro p j
  refine (locates_items p j).bind fun items hitems => ?_
  refine blames_foldlM (fun x hx (before : Listing α) => ?_) {}
  refine (h.blames_item hitems hx).bind fun a ha => ?_
  cases before.names[nameOf a]? with
  | none => exact blames_ok _
  | some i =>
    obtain ⟨entries, hentries⟩ := hobject x.1 x.2 a ha
    obtain ⟨js, n, rfl, hn, hpath⟩ := exists_of_mem_items hitems hx
    rw [hentries] at hn
    rw [hpath]
    exact blames_error (.inr (below_of_item hn (.inr (below_field rfl))))

/-- The entries that are read, or none at all, are tabulated. -/
theorem tabulated_of_optional {α : Type} {read : Reader (Except Fault) α} {form : Form α}
    (h : Reads read form) {what place key : String} {nameOf : α → String} {o : Fields}
    {m : Option (Listing α)} (hm : o.optional key (Reader.distinct what place nameOf read) = .ok m) :
    (m.getD {}).Tabulated nameOf := by
  rw [(h.distinct what place nameOf).optional] at hm
  exact (holdsOr_distinct_iff.1 (holdsOr_iff.2 ⟨m, hm, rfl⟩)).2

/-- All that is wrong with the fields of a document is in one of them. -/
theorem below_of_graph {entries : Entries} {f : Fault}
    (h : Reader.graph [] (.object entries) = .error f) : Below [] (.object entries) f := by
  let o : Fields := ⟨[], entries⟩
  have hresources := locates_resource.distinct (fun _ _ _ hr => exists_object_of_ok hr) "resource"
    "resources" Resource.name
  have hpasses {declared : Listing Resource} (hd : declared.Tabulated Resource.name) :=
    (locates_pass hd).distinct (fun _ _ _ hp => exists_object_of_ok hp) "pass" "passes" Pass.name
  suffices hfields : BlamesField o (Reader.graph [] (.object entries)) from hfields f h
  refine (blamesField_required locates_word).bind fun version _ => ?_
  refine Blames.check (fun _ => below_field rfl) fun _ => ?_
  refine (blamesField_required locates_text).bind fun name _ => ?_
  refine (blamesField_optional hresources).bind fun resources hread => ?_
  have hd := tabulated_of_optional reads_resource hread
  refine (blamesField_optional (hpasses hd)).bind fun passes _ => ?_
  exact (blamesField_optional (locates_outputs hd)).bind fun outputs _ => blames_ok _

end FrameGraph.Document

namespace FrameGraph

open Document

/-- A document that is refused is no object, or its fault is at a value in it or at a field of an object
in it; and a field that is reported as missing is absent or null. -/
theorem Graph.fault_points_into_document {document : Json} {f : Fault}
    (h : Graph.ofDocument document = .error f) :
    ((∀ fields, document ≠ .object fields) ∧ f.error.path = "<root>" ∧
      f.cause = .unexpected .object document.kind) ∨
    ∃ p s j, f.error.path = Path.render (p ++ [s]) ∧ Walks document p j ∧
      ((∃ v, Reaches j s v) ∨ ∃ o key, j = .object o ∧ s = .field key ∧ key ∉ o.map Prod.fst) ∧
      ∀ suffix, f.error.reason = "missing required field" ++ suffix →
        ∃ o key, j = .object o ∧ s = .field key ∧ ∀ v, (key, v) ∈ o → v = .null := by
  cases document with
  | object entries =>
    obtain ⟨p, s, j, hpath, hwalk, hends, hcause⟩ := below_of_graph h
    refine .inr ⟨p, s, j, ?_, hwalk, hends, fun suffix hreason => ?_⟩
    · rw [Fault.error, hpath, List.nil_append]
    · have hno := Cause.isPlain_of_isMissing (Cause.isMissing_of_reason hreason)
      rcases hcause with hplain | ⟨-, hmisses⟩
      · exact absurd (hplain.symm.trans hno) nofun
      · exact hmisses
  | _ =>
    obtain rfl := Except.error.inj h
    exact .inl ⟨nofun, rfl, rfl⟩

/-- No name stands for a position beyond its list while a document is read. -/
theorem Graph.fault_in_bounds {document : Json} {f : Fault}
    (h : Graph.ofDocument document = .error f) (position length : Nat) :
    f.cause ≠ .outOfBounds position length := by
  intro hcause
  cases document with
  | object entries =>
    obtain ⟨-, -, -, -, -, -, hplain | ⟨hmissing, -⟩⟩ := below_of_graph h
    · rw [hcause] at hplain
      exact absurd hplain nofun
    · rw [hcause] at hmissing
      exact absurd hmissing nofun
  | _ =>
    obtain rfl := Except.error.inj h
    exact absurd hcause nofun

/-- A document whose only image has a null in place of its extent. -/
def extentless : Json :=
  .object
    [("version", .natural 1), ("name", .text "extentless"),
      ("resources", .array
        [.object
          [("name", .text "color"), ("type", .text "image"), ("extent", .null),
            ("format", .text "SWAPCHAIN")]])]

theorem extent_missing_extentless :
    Graph.ofDocument extentless =
      .error ⟨[.field "resources", .item 0, .field "extent"], .missingOfImage "an extent"⟩ ∧
    ∃ p s j, "resources[0].extent" = Path.render (p ++ [s]) ∧ Walks extentless p j ∧
      ∃ o key, j = .object o ∧ s = .field key ∧ ∀ v, (key, v) ∈ o → v = .null := by
  have h : Graph.ofDocument extentless =
      .error ⟨[.field "resources", .item 0, .field "extent"], .missingOfImage "an extent"⟩ := by rfl
  refine ⟨h, ?_⟩
  rcases Graph.fault_points_into_document h with ⟨hno, -⟩ | ⟨p, s, j, hpath, hwalk, -, hmissing⟩
  · exact absurd rfl (hno _)
  · have hrender : "resources[0].extent" =
        Path.render [.field "resources", .item 0, .field "extent"] := by decide +kernel
    exact ⟨p, s, j, hrender.trans hpath, hwalk,
      hmissing " (non-import images need an extent)" (by decide +kernel)⟩

end FrameGraph
