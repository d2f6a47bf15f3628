import FrameGraph.Proofs.Document.Acceptance

namespace FrameGraph

variable {α β : Type}

/-- The members at the given positions, in that order. -/
def reorder (order : List Nat) (as : List α) : List α := order.filterMap (as[·]?)

theorem filterMap_range_getElem? (as : List α) :
    (List.range as.length).filterMap (as[·]?) = as := by
  induction as with
  | nil => rfl
  | cons a as ih =>
    rw [List.length_cons, List.range_succ_eq_map, List.filterMap_cons_some (b := a) (by simp),
      List.filterMap_map]
    simpa [Function.comp_def] using ih

theorem reorder_perm {order : List Nat} {as : List α} (h : order.Perm (List.range as.length)) :
    (reorder order as).Perm as :=
  (h.filterMap _).trans (.of_eq (filterMap_range_getElem? as))

/-- Members that belong together do so in every order. -/
theorem forall₂_reorder {R : α → β → Prop} {as : List α} {bs : List β} (h : List.Forall₂ R as bs)
    (order : List Nat) : List.Forall₂ R (reorder order as) (reorder order bs) := by
  induction order with
  | nil => exact .nil
  | cons i order ih =>
    unfold reorder at ih ⊢
    by_cases hi : i < as.length
    · have hi' : i < bs.length := h.length_eq ▸ hi
      rw [List.filterMap_cons_some (List.getElem?_eq_getElem hi),
        List.filterMap_cons_some (List.getElem?_eq_getElem hi')]
      exact .cons (h.get hi hi') ih
    · have hi' : ¬i < bs.length := h.length_eq ▸ hi
      rw [List.filterMap_cons_none (List.getElem?_eq_none (Nat.le_of_not_lt hi)),
        List.filterMap_cons_none (List.getElem?_eq_none (Nat.le_of_not_lt hi'))]
      exact ih

/-- The graph with its resources in another order. -/
def Graph.reorder (g : Graph) (order : List Nat) : Graph :=
  { g with
    resources := FrameGraph.reorder order g.resources
    resourceNames := .positions ((FrameGraph.reorder order g.resources).map (·.name)) }

namespace Document

section

variable {form form' : Form α} {o o' : Entries} {key : String}

theorem Holds.imp {a : α} (h : Holds o key form a)
    (hkey : Json.present? o' key = Json.present? o key) (hform : ∀ j a, form j a → form' j a) :
    Holds o' key form' a := by
  obtain ⟨j, hj, ha⟩ := h
  exact ⟨j, has_iff.2 (hkey.trans (has_iff.1 hj)), hform j a ha⟩

theorem Lacks.imp (h : Lacks o key) (hkey : Json.present? o' key = Json.present? o key) :
    Lacks o' key :=
  lacks_iff.2 (hkey.trans (lacks_iff.1 h))

theorem MayHold.imp {m : Option α} (h : MayHold o key form m)
    (hkey : Json.present? o' key = Json.present? o key) (hform : ∀ j a, form j a → form' j a) :
    MayHold o' key form' m := by
  cases m with
  | none => exact Lacks.imp h hkey
  | some a => exact Holds.imp h hkey hform

theorem HoldsOr.imp {default a : α} (h : HoldsOr o key form default a)
    (hkey : Json.present? o' key = Json.present? o key) (hform : ∀ j a, form j a → form' j a) :
    HoldsOr o' key form' default a := by
  rcases h with hholds | ⟨hlacks, rfl⟩
  · exact .inl (hholds.imp hkey hform)
  · exact .inr ⟨hlacks.imp hkey, rfl⟩

theorem Form.list_imp (hform : ∀ j a, form j a → form' j a) (j : Json) (as : List α)
    (h : Form.list form j as) : Form.list form' j as := by
  obtain ⟨js, rfl, has⟩ := h
  exact ⟨js, rfl, has.imp hform⟩

theorem Form.object_imp {fields fields' : Entries → α → Prop} (h : ∀ o a, fields o a → fields' o a)
    (j : Json) (a : α) (hj : Form.object fields j a) : Form.object fields' j a := by
  obtain ⟨o, rfl, ha⟩ := hj
  exact ⟨o, rfl, h o a ha⟩

end

section

variable {declared declared' : List Resource}

/-- All that one list of resources declares, the other one declares too. -/
def Declares (declared declared' : List Resource) : Prop :=
  ∀ type name, Declared declared type name → Declared declared' type name

theorem declares_of_perm (h : declared.Perm declared') : Declares declared declared' := by
  intro type name hdeclared
  obtain ⟨r, hr, hname⟩ := hdeclared
  exact ⟨r, h.mem_iff.1 hr, hname⟩

theorem UseFields.imp (hd : Declares declared declared') (o : Entries) (u : Use)
    (h : UseFields declared o u) : UseFields declared' o u :=
  { h with declared := hd _ _ h.declared }

theorem AttachmentFields.imp {γ : Type} {clear : Form γ} {o : Entries} {a : Attachment γ}
    (hd : Declares declared declared') (h : AttachmentFields declared clear o a) :
    AttachmentFields declared' clear o a :=
  { h with declared := hd _ _ h.declared }

theorem ColorFields.imp (hd : Declares declared declared') (o : Entries) (a : Attachment Color)
    (h : ColorFields declared o a) : ColorFields declared' o a :=
  ⟨h.attachment.imp hd, h.readOnly⟩

theorem DepthFields.imp (hd : Declares declared declared') (o : Entries) (d : DepthAttachment)
    (h : DepthFields declared o d) : DepthFields declared' o d :=
  ⟨h.attachment.imp hd, h.readOnly⟩

theorem AttachmentsFields.imp (hd : Declares declared declared') (o : Entries) (a : Attachments)
    (h : AttachmentsFields declared o a) : AttachmentsFields declared' o a := by
  have hcolor := Form.object_imp (ColorFields.imp hd)
  have hdepth := Form.object_imp (DepthFields.imp hd)
  exact ⟨h.colors.imp rfl (Form.list_imp hcolor), h.depth.imp rfl hdepth⟩

theorem PassFields.imp (hd : Declares declared declared') (o : Entries) (d : Pass)
    (h : PassFields declared o d) : PassFields declared' o d := by
  have huse := Form.object_imp (UseFields.imp hd)
  have hattachments := Form.object_imp (AttachmentsFields.imp hd)
  exact
    { h with
      reads := h.reads.imp rfl (Form.list_imp huse)
      writes := h.writes.imp rfl (Form.list_imp huse)
      attachments := h.attachments.imp rfl hattachments }

theorem Form.reference_imp (hd : Declares declared declared') (type : ResourceType) (j : Json)
    (name : String) (h : Form.reference declared type j name) : Form.reference declared' type j name :=
  ⟨h.1, hd _ _ h.2⟩

theorem OutputsFields.imp (hd : Declares declared declared') (o : Entries) (out : Outputs)
    (h : OutputsFields declared o out) : OutputsFields declared' o out := by
  have himage := Form.reference_imp hd .image
  have hbuffer := Form.reference_imp hd .buffer
  exact ⟨h.present.imp rfl himage, h.exportImages.imp rfl (Form.list_imp himage),
    h.exportBuffers.imp rfl (Form.list_imp hbuffer)⟩

end

/-- The resources of a graph are those of the array that its document has for them. -/
theorem GraphFields.forall₂_resources {o : Entries} {g : Graph} (h : GraphFields o g)
    {js : List Json} (hjs : Json.present? o "resources" = some (.array js)) :
    List.Forall₂ (Form.object ResourceFields) js g.resources := by
  rcases h.resources with ⟨j, hj, js', rfl, hall⟩ | ⟨hlacks, -⟩
  · obtain rfl := Json.array.inj (Option.some.inj (hjs.symm.trans (has_iff.1 hj)))
    exact hall
  · exact absurd (hjs.symm.trans (lacks_iff.1 hlacks)) nofun

theorem GraphFields.reorder {o : Entries} {g : Graph} (h : GraphFields o g) {js : List Json}
    (hjs : Json.present? o "resources" = some (.array js)) {order : List Nat}
    (horder : order.Perm (List.range js.length)) :
    GraphFields (Json.put o "resources" (.array (reorder order js))) (g.reorder order) := by
  have hall := h.forall₂_resources hjs
  rw [hall.length_eq] at horder
  have hperm : (FrameGraph.reorder order g.resources).Perm g.resources := reorder_perm horder
  have hnames : ((FrameGraph.reorder order g.resources).map (·.name)).Nodup :=
    (hperm.map _).nodup_iff.2 h.resourceNames
  have hd : Declares g.resources (g.reorder order).resources := declares_of_perm hperm.symm
  have hpass := Form.object_imp (PassFields.imp hd)
  have houtputs := Form.object_imp (OutputsFields.imp hd)
  -- every other field of the document is what it was
  have hother (key : String) (hkey : "resources" ≠ key) := Json.present?_put_of_ne o hkey
    (.array (FrameGraph.reorder order js))
  exact
    { version := ⟨h.version.1.imp (hother _ (by decide)) fun _ _ hv => hv, h.version.2⟩
      name := h.name.imp (hother _ (by decide)) fun _ _ hn => hn
      resources := .inl ⟨_, has_iff.2 (Json.present?_put_self o "resources" rfl), _, rfl,
        forall₂_reorder hall order⟩
      resourceNames := hnames
      resourceTable := tabulates_positions hnames
      passes := h.passes.imp (hother _ (by decide)) (Form.list_imp hpass)
      passNames := h.passNames
      passTable := h.passTable
      outputs := h.outputs.imp (hother _ (by decide)) houtputs }

theorem fields_of_ofDocument {o : Entries} {g : Graph} (h : Graph.ofDocument (.object o) = .ok g) :
    GraphFields o g := by
  obtain ⟨o', ho, hfields⟩ := (reads_graph [] (.object o) g).1 h
  obtain rfl := Json.object.inj ho
  exact hfields

theorem ofDocument_put_reorder {o : Entries} {js : List Json} {g : Graph} {order : List Nat}
    (h : Graph.ofDocument (.object o) = .ok g)
    (hjs : Json.present? o "resources" = some (.array js))
    (horder : order.Perm (List.range js.length)) :
    Graph.ofDocument (.object (Json.put o "resources" (.array (reorder order js)))) =
      .ok (g.reorder order) :=
  (reads_graph [] _ _).2 ⟨_, rfl, (fields_of_ofDocument h).reorder hjs horder⟩

end Document

end FrameGraph
