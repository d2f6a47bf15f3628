import FrameGraph.Proofs.Document.Reading

namespace FrameGraph.Document

open Text (Vocabulary sameFolded trimmed)

theorem reads_repetition : Reads Reader.repetition (.object RepetitionFields) := by
  have hv : Unambiguous Vocabulary.repeatCounts := by decide
  refine reads_object fun p o r => ?_
  rw [map_eq_ok]
  simp only [(reads_spelled hv).required]
  constructor
  · intro h
    obtain ⟨source, hsource, rfl⟩ := h
    exact .counted hsource
  · intro h
    cases h with
    | counted h => exact ⟨_, h, rfl⟩

/-- The word of a mode. -/
def ExtentMode.word : ExtentMode → String
  | window => "window"
  | viewport => "viewport"
  | fixed => "fixed"
  | square => "square"

theorem spells_extentModes_iff {s : String} {mode : ExtentMode} :
    Spells Vocabulary.extentModes s mode ↔ sameFolded (trimmed s) mode.word = true := by
  rw [Text.sameFolded_iff]
  cases mode <;> simp [Spells, Vocabulary.extentModes, ExtentMode.word]

/-- A mode is a string that is the word of the mode up to blanks and case. -/
theorem holds_mode_iff {o : Entries} {mode : ExtentMode} :
    Holds o "mode" (.token Vocabulary.extentModes) mode ↔
      ∃ s, Holds o "mode" .text s ∧ sameFolded (trimmed s) mode.word = true := by
  simp only [holds_token_iff, spells_extentModes_iff]

theorem reads_extent : Reads Reader.extent (.object ExtentFields) := by
  have hsizes : Unambiguous Vocabulary.sizeSources := by decide
  refine reads_object fun p o e => ?_
  simp only [bind_eq_ok, reads_text.required]
  constructor
  · intro h
    obtain ⟨s, hs, h⟩ := h
    have hmode (mode : ExtentMode) (hsame : sameFolded (trimmed s) mode.word = true) :
        Holds o.fields "mode" (.token Vocabulary.extentModes) mode :=
      holds_mode_iff.2 ⟨s, hs, hsame⟩
    by_cases hbare : (sameFolded (trimmed s) "window" || sameFolded (trimmed s) "viewport") = true
    · rw [if_pos hbare] at h
      simp only [check_eq_ok, pure_eq_ok, Bool.not_eq_true, Bool.or_eq_false_iff,
        Fields.has_eq_false] at h
      obtain ⟨⟨⟨hw, hh⟩, hsize⟩, rfl⟩ := h
      by_cases hwindow : sameFolded (trimmed s) "window" = true
      · rw [if_pos hwindow]
        exact .window (hmode .window hwindow) hw hh hsize
      · have hviewport : sameFolded (trimmed s) "viewport" = true := by simpa [hwindow] using hbare
        rw [if_neg hwindow]
        exact .viewport (hmode .viewport hviewport) hw hh hsize
    · rw [if_neg hbare] at h
      by_cases hfixed : sameFolded (trimmed s) "fixed" = true
      · rw [if_pos hfixed] at h
        simp only [check_eq_ok, pure_eq_ok, bind_eq_ok, Bool.not_eq_true, Bool.or_eq_false_iff,
          Fields.has_eq_false, reads_word.required, decide_eq_false_iff_not] at h
        obtain ⟨hsize, width, hw, height, hh, ⟨hwidth, hheight⟩, rfl⟩ := h
        exact .fixed (hmode .fixed hfixed) hw hh hwidth hheight hsize
      · rw [if_neg hfixed] at h
        by_cases hsquare : sameFolded (trimmed s) "square" = true
        · rw [if_pos hsquare] at h
          simp only [check_eq_ok, pure_eq_ok, bind_eq_ok, Bool.not_eq_true, Bool.or_eq_false_iff,
            Fields.has_eq_false, (reads_spelled hsizes).required] at h
          obtain ⟨⟨hw, hh⟩, source, hsize, rfl⟩ := h
          exact .square (hmode .square hsquare) hsize hw hh
        · rw [if_neg hsquare] at h
          exact absurd h nofun
  · intro h
    -- the branches are told apart by the word of the mode
    have hword {mode : ExtentMode}
        (hmode : Holds o.fields "mode" (.token Vocabulary.extentModes) mode) :
        ∃ s, Holds o.fields "mode" .text s ∧
          ∀ w, sameFolded (trimmed s) w = sameFolded mode.word w := by
      obtain ⟨s, hs, hsame⟩ := holds_mode_iff.1 hmode
      exact ⟨s, hs, Text.sameFolded_congr (Text.sameFolded_iff.1 hsame)⟩
    cases h with
    | window hmode hw hh hsize =>
      obtain ⟨s, hs, hsame⟩ := hword hmode
      refine ⟨s, hs, ?_⟩
      simp only [hsame]
      rw [if_pos (by decide)]
      simp only [check_eq_ok, pure_eq_ok, Bool.not_eq_true, Bool.or_eq_false_iff,
        Fields.has_eq_false]
      exact ⟨⟨⟨hw, hh⟩, hsize⟩, by decide⟩
    | viewport hmode hw hh hsize =>
      obtain ⟨s, hs, hsame⟩ := hword hmode
      refine ⟨s, hs, ?_⟩
      simp only [hsame]
      rw [if_pos (by decide)]
      simp only [check_eq_ok, pure_eq_ok, Bool.not_eq_true, Bool.or_eq_false_iff,
        Fields.has_eq_false]
      exact ⟨⟨⟨hw, hh⟩, hsize⟩, by decide⟩
    | fixed hmode hw hh hwidth hheight hsize =>
      obtain ⟨s, hs, hsame⟩ := hword hmode
      refine ⟨s, hs, ?_⟩
      simp only [hsame]
      rw [if_neg (by decide), if_pos (by decide)]
      simp only [check_eq_ok, pure_eq_ok, bind_eq_ok, Bool.not_eq_true, Bool.or_eq_false_iff,
        Fields.has_eq_false, reads_word.required, decide_eq_false_iff_not]
      exact ⟨hsize, _, hw, _, hh, ⟨hwidth, hheight⟩, rfl⟩
    | square hmode hsize hw hh =>
      obtain ⟨s, hs, hsame⟩ := hword hmode
      refine ⟨s, hs, ?_⟩
      simp only [hsame]
      rw [if_neg (by decide), if_neg (by decide), if_pos (by decide)]
      simp only [check_eq_ok, pure_eq_ok, bind_eq_ok, Bool.not_eq_true, Bool.or_eq_false_iff,
        Fields.has_eq_false, (reads_spelled hsizes).required]
      exact ⟨⟨hw, hh⟩, _, hsize, trivial⟩

theorem layers_eq_ok {o : Fields} {l : Layers} : o.layers = .ok l ↔ LayersFields o.fields l := by
  have hv : Unambiguous Vocabulary.layerCounts := by decide
  unfold Fields.layers
  simp only [bind_eq_ok, reads_word.optional, reads_text.optional]
  constructor
  · intro h
    obtain ⟨count, hcount, source, hsource, h⟩ := h
    cases count with
    | none =>
      cases source with
      | none =>
        obtain rfl := pure_eq_ok.1 h
        exact .single hcount hsource
      | some s =>
        simp only [map_eq_ok, lookUp_eq_ok hv] at h
        obtain ⟨a, ha, rfl⟩ := h
        exact .counted (holds_token_iff.2 ⟨s, hsource, ha⟩) hcount
    | some n =>
      cases source with
      | none =>
        simp only [check_eq_ok, pure_eq_ok] at h
        obtain ⟨hn, rfl⟩ := h
        exact .fixed hcount hn hsource
      | some s => exact absurd h nofun
  · intro h
    cases h with
    | fixed hcount hn hsource =>
      refine ⟨some _, hcount, none, hsource, ?_⟩
      simp only [check_eq_ok, pure_eq_ok]
      exact ⟨hn, trivial⟩
    | counted hsource hcount =>
      obtain ⟨s, hs, hspells⟩ := holds_token_iff.1 hsource
      refine ⟨none, hcount, some s, hs, ?_⟩
      simp only [map_eq_ok, lookUp_eq_ok hv]
      exact ⟨_, hspells, trivial⟩
    | single hcount hsource => exact ⟨none, hcount, none, hsource, rfl⟩

theorem orOfImport_eq_ok {α : Type} {o : Fields} {key what : String}
    {read : Reader (Except Fault) α} {form : Form α} (h : Reads read form) {isImport : Bool}
    {value a : α} :
    o.orOfImport key what read isImport value = .ok a ↔
      HoldsOr o.fields key form value a ∧ (isImport = false → ¬Lacks o.fields key) := by
  unfold Fields.orOfImport
  rw [bind_eq_ok]
  simp only [h.optional]
  constructor
  · intro hok
    obtain ⟨m, hm, hok⟩ := hok
    cases m with
    | none =>
      cases isImport with
      | true => exact ⟨.inr ⟨hm, (pure_eq_ok.1 hok).symm⟩, nofun⟩
      | false => exact absurd hok nofun
    | some b =>
      obtain rfl := pure_eq_ok.1 hok
      exact ⟨.inl hm, fun _ hlacks => not_lacks_of_holds hm hlacks⟩
  · intro hform
    obtain ⟨hholds | ⟨hlacks, rfl⟩, hneeded⟩ := hform
    · exact ⟨some a, hholds, rfl⟩
    · cases isImport with
      | true => exact ⟨none, hlacks, rfl⟩
      | false => exact absurd hlacks (hneeded rfl)

theorem flags_eq_ok {φ : Type} [Flag φ] [InCapitals φ] {noun : String} {o : Fields} {key : String}
    {s : FlagSet φ} :
    o.flags key noun = .ok s ↔ HoldsOr o.fields key (.flags noun) .empty s :=
  reads_flags.optionalOr

theorem condition_eq_ok {o : Fields} {c : Condition} :
    o.condition = .ok c ↔
      HoldsOr o.fields "condition" (.token Vocabulary.conditions) .always c := by
  have hv : Unambiguous Vocabulary.conditions := by decide
  exact (reads_spelled hv).optionalOr

theorem repetition_eq_ok {o : Fields} {r : Repetition} :
    o.repetition = .ok r ↔ HoldsOr o.fields "repeat" (.object RepetitionFields) .once r :=
  reads_repetition.optionalOr

theorem image_eq_ok {o : Fields} {i : Image} : o.image = .ok i ↔ ImageFields o.fields i := by
  have hformats : Unambiguous Vocabulary.formats := by decide
  unfold Fields.image
  simp only [bind_eq_ok, reads_text.optional, orOfImport_eq_ok reads_extent, layers_eq_ok,
    orOfImport_eq_ok (reads_spelled hformats), flags_eq_ok,
    check_eq_ok, pure_eq_ok]
  constructor
  · intro h
    obtain ⟨importName, himport, extent, ⟨hextent, hneeded⟩, layers, hlayers, format,
      ⟨hformat, hneeded'⟩, usage, husage, hused, rfl⟩ := h
    refine ⟨himport, hextent, hlayers, hformat, husage, ?_⟩
    intro hnone
    dsimp only at hnone
    subst hnone
    exact ⟨hneeded rfl, hneeded' rfl, by simpa using hused⟩
  · intro h
    refine ⟨i.importName, h.importName, i.extent, ⟨h.extent, ?_⟩, i.layers, h.layers, i.format,
      ⟨h.format, ?_⟩, i.usage, h.usage, ?_, rfl⟩
    · intro hno
      exact (h.complete (by simpa using hno)).1
    · intro hno
      exact (h.complete (by simpa using hno)).2.1
    · intro hunused
      obtain ⟨hempty, hno⟩ : i.usage.isEmpty = true ∧ i.importName = none := by simpa using hunused
      exact absurd hempty (by simp [(h.complete hno).2.2])

theorem buffer_eq_ok {o : Fields} {b : Buffer} : o.buffer = .ok b ↔ BufferFields o.fields b := by
  unfold Fields.buffer
  simp only [bind_eq_ok, reads_long.required, flags_eq_ok, check_eq_ok,
    pure_eq_ok, Bool.not_eq_true]
  constructor
  · intro h
    obtain ⟨size, hsize, hpos, usage, husage, hused, rfl⟩ := h
    exact ⟨hsize, husage, hpos, hused⟩
  · intro h
    exact ⟨b.size, h.size, h.nonempty.1, b.usage, h.usage, h.nonempty.2, rfl⟩

theorem body_eq_ok {o : Fields} {type : ResourceType} {b : ResourceBody} :
    o.body type = .ok b ↔ b.type = type ∧ BodyFields o.fields b := by
  unfold Fields.body
  cases type with
  | image =>
    simp only [map_eq_ok, image_eq_ok]
    cases b with
    | image i => simp [ResourceBody.type, BodyFields]
    | buffer b => simp [ResourceBody.type]
  | buffer =>
    simp only [map_eq_ok, buffer_eq_ok]
    cases b with
    | image i => simp [ResourceBody.type]
    | buffer b => simp [ResourceBody.type, BodyFields]

theorem reads_resource : Reads Reader.resource (.object ResourceFields) := by
  have htypes : Unambiguous Vocabulary.resourceTypes := by decide
  refine reads_object fun p o r => ?_
  simp only [bind_eq_ok, reads_name.required, (reads_spelled htypes).required,
    condition_eq_ok, repetition_eq_ok, flags_eq_ok, body_eq_ok, pure_eq_ok]
  constructor
  · intro h
    obtain ⟨name, hname, type, htype, c, hc, rep, hrep, flags, hf, body, ⟨rfl, hbody⟩, rfl⟩ := h
    exact ⟨hname, htype, hc, hrep, hf, hbody⟩
  · intro h
    exact ⟨r.name, h.name, r.type, h.type, r.condition, h.condition, r.repetition, h.repetition,
      r.flags, h.flags, r.body, ⟨rfl, h.body⟩, rfl⟩

section

variable {declared : Listing Resource}

/-- The position that the name has in the table is that of the only resource of the name. -/
theorem expect_eq_ok (hd : declared.Tabulated Resource.name) {p : Path} {name : String}
    {type : ResourceType} :
    expect declared p name type = .ok () ↔ Declared declared.entries type name := by
  have hname (i : Nat) : declared.names[name]? = some i ↔
      (declared.entries[i]?).map Resource.name = some name := by
    rw [← List.getElem?_map]
    exact hd name i
  unfold expect Declared
  cases hfind : declared.names[name]? with
  | none =>
    constructor
    · intro h
      exact absurd h nofun
    · intro h
      obtain ⟨r, hr, rfl, -⟩ := h
      have hmem := (Tabulates.getElem?_eq_none_iff hd).1 hfind
      exact absurd (List.mem_map_of_mem hr) hmem
  | some i =>
    obtain ⟨r, hr, rfl⟩ := Option.map_eq_some_iff.1 ((hname i).1 hfind)
    dsimp only
    rw [hr]
    by_cases htype : r.type = type
    · simp only [if_pos htype, pure_eq_ok, true_iff]
      exact ⟨r, List.mem_of_getElem? hr, rfl, htype⟩
    · simp only [if_neg htype, blame_eq_error, reduceCtorEq, false_iff]
      intro h
      obtain ⟨r', hr', hsame, htype'⟩ := h
      have heq := List.inj_on_of_nodup_map (Tabulates.nodup hd) hr' (List.mem_of_getElem? hr) hsame
      exact htype (heq ▸ htype')

theorem used_eq_ok {o : Fields} {name : String} {type : ResourceType} :
    o.used = .ok (name, type) ↔
      type = .image ∧ Holds o.fields "image" .text name ∧ Lacks o.fields "buffer" ∨
      type = .buffer ∧ Holds o.fields "buffer" .text name ∧ Lacks o.fields "image" := by
  unfold Fields.used
  simp only [bind_eq_ok, reads_text.optional]
  constructor
  · intro h
    obtain ⟨image, himage, buffer, hbuffer, h⟩ := h
    cases image with
    | none =>
      cases buffer with
      | none => exact absurd h nofun
      | some b =>
        obtain ⟨rfl, rfl⟩ := Prod.mk.inj (pure_eq_ok.1 h)
        exact .inr ⟨rfl, hbuffer, himage⟩
    | some i =>
      cases buffer with
      | none =>
        obtain ⟨rfl, rfl⟩ := Prod.mk.inj (pure_eq_ok.1 h)
        exact .inl ⟨rfl, himage, hbuffer⟩
      | some b => exact absurd h nofun
  · intro h
    rcases h with ⟨rfl, himage, hbuffer⟩ | ⟨rfl, hbuffer, himage⟩
    · exact ⟨some name, himage, none, hbuffer, rfl⟩
    · exact ⟨none, himage, some name, hbuffer, rfl⟩

theorem access_eq_ok {o : Fields} {type : ResourceType} {a : Access} :
    o.access type = .ok a ↔ a.type = type ∧
      match a with
      | .image access => Holds o.fields "access" (.token Vocabulary.imageAccesses) access
      | .buffer access => Holds o.fields "access" (.token Vocabulary.bufferAccesses) access := by
  have himages : Unambiguous Vocabulary.imageAccesses := by decide
  have hbuffers : Unambiguous Vocabulary.bufferAccesses := by decide
  unfold Fields.access
  cases type with
  | image =>
    simp only [map_eq_ok, (reads_spelled himages).required]
    cases a with
    | image access => simp [Access.type]
    | buffer access => simp [Access.type]
  | buffer =>
    simp only [map_eq_ok, (reads_spelled hbuffers).required]
    cases a with
    | image access => simp [Access.type]
    | buffer access => simp [Access.type]

theorem reads_use (hd : declared.Tabulated Resource.name) :
    Reads (Reader.use declared) (.object (UseFields declared.entries)) := by
  refine reads_object fun p o u => ?_
  simp only [bind_eq_ok, Prod.exists, used_eq_ok, expect_eq_ok hd, access_eq_ok, repetition_eq_ok,
    reads_index.optional, pure_eq_ok]
  constructor
  · intro h
    obtain ⟨name, type, hused, _, hdeclared, access, ⟨rfl, haccess⟩, rep, hrep, b, hb, i, hi, rfl⟩ := h
    refine ⟨?_, hdeclared, hrep, hb, hi⟩
    cases access with
    | image access =>
      rcases hused with ⟨-, hname, hno⟩ | ⟨hf, -⟩
      · exact .image hname hno haccess
      · exact absurd hf nofun
    | buffer access =>
      rcases hused with ⟨hf, -⟩ | ⟨-, hname, hno⟩
      · exact absurd hf nofun
      · exact .buffer hname hno haccess
  · intro h
    obtain ⟨name, access, rep, b, i⟩ := u
    obtain ⟨haccess, hdeclared, hrep, hb, hi⟩ := h
    cases haccess with
    | image hname hno h =>
      exact ⟨name, .image, .inl ⟨rfl, hname, hno⟩, (), hdeclared, _, ⟨rfl, h⟩, rep, hrep, b, hb, i,
        hi, rfl⟩
    | buffer hname hno h =>
      exact ⟨name, .buffer, .inr ⟨rfl, hname, hno⟩, (), hdeclared, _, ⟨rfl, h⟩, rep, hrep, b, hb, i,
        hi, rfl⟩

theorem reads_color : Reads Reader.color .color := by
  intro p j c
  unfold Form.color
  constructor
  · intro h
    unfold Reader.color at h
    split at h
    · simp only [bind_eq_ok, reads_single _ _ _, pure_eq_ok] at h
      obtain ⟨red, hr, green, hg, blue, hb, alpha, ha, rfl⟩ := h
      exact ⟨_, _, _, _, rfl, hr, hg, hb, ha⟩
    · exact absurd h nofun
    · exact absurd h nofun
  · intro h
    obtain ⟨r, g, b, a, rfl, hr, hg, hb, ha⟩ := h
    unfold Reader.color
    simp only [bind_eq_ok, reads_single _ _ _, pure_eq_ok]
    exact ⟨_, hr, _, hg, _, hb, _, ha, rfl⟩

theorem reads_depthStencilFields :
    Reads (fun p j => do
      let o ← Reader.object p j
      let depth ← o.optional "depth" Reader.single
      let stencil ← o.optional "stencil" Reader.word
      return { depth := depth.getD .one, stencil := stencil.getD 0 })
      (.object DepthStencilFields) := by
  refine reads_object fun p o d => ?_
  simp only [bind_eq_ok, reads_single.optional, reads_word.optional, pure_eq_ok]
  constructor
  · intro h
    obtain ⟨depth, hdepth, stencil, hstencil, rfl⟩ := h
    exact ⟨holdsOr_iff.2 ⟨depth, hdepth, rfl⟩, holdsOr_iff.2 ⟨stencil, hstencil, rfl⟩⟩
  · intro h
    obtain ⟨depth, hdepth, hd⟩ := holdsOr_iff.1 h.depth
    obtain ⟨stencil, hstencil, hs⟩ := holdsOr_iff.1 h.stencil
    exact ⟨depth, hdepth, stencil, hstencil, by rw [hd, hs]⟩

theorem reads_depthStencil : Reads Reader.depthStencil .depthStencil := by
  intro p j d
  unfold Reader.depthStencil Form.depthStencil
  rw [Json.isNumber_iff_single?]
  cases hj : j.single? with
  | some x =>
    have hnumber : ¬Form.object DepthStencilFields j d := by
      intro h
      obtain ⟨o, rfl, -⟩ := h
      exact absurd hj nofun
    simp only [Option.isSome_some, if_true, bind_eq_ok, reads_single _ _ _, pure_eq_ok,
      or_iff_left hnumber]
    constructor
    · intro h
      obtain ⟨depth, hdepth, rfl⟩ := h
      exact ⟨hdepth, rfl⟩
    · intro h
      obtain ⟨depth, stencil⟩ := d
      obtain ⟨hdepth, rfl⟩ := h
      exact ⟨depth, hdepth, rfl⟩
  | none =>
    have hnumber : ¬(Form.single j d.depth ∧ d.stencil = 0) := by
      intro h
      exact absurd (hj.symm.trans h.1) nofun
    rw [or_iff_right hnumber, Option.isSome_none, if_neg Bool.false_ne_true]
    exact reads_depthStencilFields p j d

theorem reads_slice : Reads Reader.slice (.object SliceFields) := by
  refine reads_object fun p o s => ?_
  simp only [bind_eq_ok, reads_word.optional, reads_index.optional, check_eq_ok, pure_eq_ok]
  constructor
  · intro h
    obtain ⟨count, hcount, hpos, mip, hmip, base, hbase, rfl⟩ := h
    exact ⟨holdsOr_iff.2 ⟨mip, hmip, rfl⟩, holdsOr_iff.2 ⟨base, hbase, rfl⟩,
      holdsOr_iff.2 ⟨count, hcount, rfl⟩, hpos⟩
  · intro h
    obtain ⟨mip, hmip, hm⟩ := holdsOr_iff.1 h.mipLevel
    obtain ⟨base, hbase, hb⟩ := holdsOr_iff.1 h.baseLayer
    obtain ⟨count, hcount, hc⟩ := holdsOr_iff.1 h.layerCount
    exact ⟨count, hcount, hc ▸ h.nonempty, mip, hmip, base, hbase, by rw [hm, hb, hc]⟩

theorem attachment_eq_ok (hd : declared.Tabulated Resource.name) {γ β : Type}
    {clear : Reader (Except Fault) γ} {form : Form γ} (hclear : Reads clear form) {readOnly : Fields → Except Fault β} {o : Fields}
    {a : Attachment γ} {b : β} :
    Reader.attachment declared clear readOnly o = .ok (a, b) ↔
      AttachmentFields declared.entries form o.fields a ∧ readOnly o = .ok b := by
  have hload : Unambiguous Vocabulary.loadOps := by decide
  have hstore : Unambiguous Vocabulary.storeOps := by decide
  unfold Reader.attachment
  simp only [bind_eq_ok, reads_name.required, expect_eq_ok hd, (reads_spelled hload).required,
    (reads_spelled hstore).required, hclear.optional, reads_slice.optional, pure_eq_ok, Prod.mk.injEq]
  constructor
  · intro h
    obtain ⟨image, himage, _, hdeclared, l, hl, s, hs, c, hc, b', hb, slice, hslice, rfl, rfl⟩ := h
    exact ⟨⟨himage, hdeclared, hl, hs, hc, hslice⟩, hb⟩
  · intro h
    obtain ⟨h, hb⟩ := h
    exact ⟨a.image, h.image, (), h.declared, a.load, h.load, a.store, h.store, a.clear, h.clear, b, hb,
      a.slice, h.slice, rfl, rfl⟩

theorem reads_colorAttachment (hd : declared.Tabulated Resource.name) :
    Reads (Reader.colorAttachment declared) (.object (ColorFields declared.entries)) := by
  refine reads_object fun p o a => ?_
  simp only [bind_eq_ok, Prod.exists, attachment_eq_ok hd reads_color, reads_boolean.optional,
    pure_eq_ok]
  constructor
  · intro h
    obtain ⟨a, _, ⟨ha, b, hb, hno⟩, rfl⟩ := h
    cases b with
    | none => exact ⟨ha, hb⟩
    | some b => exact absurd hno nofun
  · intro h
    exact ⟨a, (), ⟨h.attachment, none, h.readOnly, rfl⟩, rfl⟩

theorem reads_depthAttachment (hd : declared.Tabulated Resource.name) :
    Reads (Reader.depthAttachment declared) (.object (DepthFields declared.entries)) := by
  refine reads_object fun p o d => ?_
  simp only [bind_eq_ok, Prod.exists, attachment_eq_ok hd reads_depthStencil, reads_boolean.optional,
    pure_eq_ok]
  constructor
  · intro h
    obtain ⟨a, b, ⟨ha, hb⟩, rfl⟩ := h
    exact ⟨ha, holdsOr_iff.2 hb⟩
  · intro h
    exact ⟨d.attachment, d.readOnly, ⟨h.attachment, holdsOr_iff.1 h.readOnly⟩, rfl⟩

theorem listOrEmpty_eq_ok {α : Type} {read : Reader (Except Fault) α} {form : Form α}
    (h : Reads read form) {o : Fields} {key : String} {as : List α} :
    o.listOrEmpty key read = .ok as ↔ HoldsOr o.fields key (.list form) [] as :=
  h.list.optionalOr

theorem reads_attachments (hd : declared.Tabulated Resource.name) :
    Reads (Reader.attachments declared) (.object (AttachmentsFields declared.entries)) := by
  refine reads_object fun p o a => ?_
  simp only [bind_eq_ok, listOrEmpty_eq_ok (reads_colorAttachment hd),
    (reads_depthAttachment hd).optional, pure_eq_ok]
  constructor
  · intro h
    obtain ⟨colors, hcolors, depth, hdepth, rfl⟩ := h
    exact ⟨hcolors, hdepth⟩
  · intro h
    exact ⟨a.colors, h.colors, a.depth, h.depth, rfl⟩

theorem work_eq_ok {o : Fields} {type : PassType} {w : Work} :
    o.work type = .ok w ↔ w.type = type ∧ WorkFields o.fields w := by
  have hv : Unambiguous Vocabulary.domains := by decide
  have hother (w' : Work) : Fields.work.other o w' = .ok w ↔ w' = w ∧ Lacks o.fields "domain" := by
    unfold Fields.work.other
    rw [← Fields.has_eq_false]
    cases o.has "domain" <;> simp [pure_eq_ok]
  unfold Fields.work
  cases type with
  | graphics =>
    simp only [map_eq_ok, (reads_spelled hv).required]
    cases w <;> simp [Work.type, WorkFields]
  | compute =>
    rw [hother]
    cases w <;> simp [Work.type, WorkFields]
  | transfer =>
    rw [hother]
    cases w <;> simp [Work.type, WorkFields]

theorem reads_pass (hd : declared.Tabulated Resource.name) :
    Reads (Reader.pass declared) (.object (PassFields declared.entries)) := by
  have htypes : Unambiguous Vocabulary.passTypes := by decide
  refine reads_object fun p o d => ?_
  simp only [bind_eq_ok, reads_name.required, (reads_spelled htypes).required,
    condition_eq_ok, repetition_eq_ok, flags_eq_ok, work_eq_ok, listOrEmpty_eq_ok (reads_use hd),
    (reads_attachments hd).optional, check_eq_ok, pure_eq_ok]
  constructor
  · intro h
    obtain ⟨name, hname, type, htype, c, hc, rep, hrep, flags, hf, work, ⟨rfl, hwork⟩, reads, hreads,
      writes, hwrites, attachments, hattachments, hattached, execute, hexecute, rfl⟩ := h
    refine ⟨hname, htype, hc, hrep, hf, hwork, hreads, hwrites, holdsOr_iff.2 ⟨_, hattachments, rfl⟩,
      ?_, hexecute⟩
    intro hgraphics
    dsimp only at hgraphics
    simpa [hgraphics] using hattached
  · intro h
    obtain ⟨attachments, hattachments, ha⟩ := holdsOr_iff.1 h.attachments
    refine ⟨d.name, h.name, d.work.type, h.type, d.condition, h.condition, d.repetition, h.repetition,
      d.flags, h.flags, d.work, ⟨rfl, h.work⟩, d.reads, h.reads, d.writes, h.writes, attachments,
      hattachments, ?_, d.execute, h.execute, by rw [ha]⟩
    intro hempty
    obtain ⟨hgraphics, hnone⟩ : d.work.type = .graphics ∧ d.attachments.isEmpty = true := by
      simpa [ha] using hempty
    exact absurd hnone (by simp [h.attached hgraphics])

theorem reads_reference (hd : declared.Tabulated Resource.name) (type : ResourceType) :
    Reads (fun p j => do
      let name ← Reader.text p j
      expect declared p name type
      return name) (.reference declared.entries type) := by
  intro p j name
  simp only [bind_eq_ok, reads_text p j _, expect_eq_ok hd, pure_eq_ok]
  constructor
  · intro h
    obtain ⟨name, hname, _, hdeclared, rfl⟩ := h
    exact ⟨hname, hdeclared⟩
  · intro h
    exact ⟨name, h.1, (), h.2, rfl⟩

theorem forall₂_declared_iff {type : ResourceType} {ws : List (Path × String)}
    {names : List String} :
    List.Forall₂ (fun w name => w.2 = name ∧ Declared declared.entries type name) ws names ↔
      (∀ w ∈ ws, Declared declared.entries type w.2) ∧ ws.map Prod.snd = names := by
  induction ws generalizing names with
  | nil => simp [eq_comm]
  | cons w ws ih =>
    rw [List.forall₂_cons_left_iff, List.forall_mem_cons, List.map_cons]
    constructor
    · intro h
      obtain ⟨_, names, ⟨rfl, hw⟩, hrest, rfl⟩ := h
      obtain ⟨hdeclared, rfl⟩ := ih.1 hrest
      exact ⟨⟨hw, hdeclared⟩, rfl⟩
    · intro h
      obtain ⟨⟨hw, hws⟩, rfl⟩ := h
      exact ⟨_, _, ⟨rfl, hw⟩, ih.2 ⟨hws, rfl⟩, rfl⟩

/-- The references are checked once all of them are known to be strings. -/
theorem reads_exports (hd : declared.Tabulated Resource.name) (type : ResourceType) :
    Reads (Reader.exports declared type) (.list (.reference declared.entries type)) := by
  have href : Form.reference declared.entries type =
      fun j name => ∃ s, j = .text s ∧ s = name ∧ Declared declared.entries type name := by
    funext j name
    simp [Form.reference]
  intro p j names
  unfold Reader.exports
  rw [href, ← exists_texts_iff (p := p)]
  simp only [bind_eq_ok, List.forM_eq_forM, forM_eq_ok, expect_eq_ok hd, pure_eq_ok,
    forall₂_declared_iff]
  constructor
  · intro h
    obtain ⟨ws, hws, _, hnames⟩ := h
    exact ⟨ws, hws, hnames⟩
  · intro h
    obtain ⟨ws, hws, hnames⟩ := h
    exact ⟨ws, hws, (), hnames⟩

theorem reads_outputs (hd : declared.Tabulated Resource.name) :
    Reads (Reader.outputs declared) (.object (OutputsFields declared.entries)) := by
  refine reads_object fun p o out => ?_
  simp only [bind_eq_ok, (reads_reference hd .image).optional, (reads_exports hd _).optional,
    pure_eq_ok]
  constructor
  · intro h
    obtain ⟨present, hpresent, images, himages, buffers, hbuffers, rfl⟩ := h
    exact ⟨hpresent, holdsOr_iff.2 ⟨images, himages, rfl⟩, holdsOr_iff.2 ⟨buffers, hbuffers, rfl⟩⟩
  · intro h
    obtain ⟨images, himages, hi⟩ := holdsOr_iff.1 h.exportImages
    obtain ⟨buffers, hbuffers, hb⟩ := holdsOr_iff.1 h.exportBuffers
    exact ⟨out.present, h.present, images, himages, buffers, hbuffers, by rw [hi, hb]⟩

end

theorem reads_graph : Reads Reader.graph .graph := by
  refine reads_object fun p o g => ?_
  simp only [bind_eq_ok, reads_word.required, reads_text.required, check_eq_ok, pure_eq_ok,
    (reads_resource.distinct _ _ _).optional]
  constructor
  · intro h
    obtain ⟨version, hversion, hcurrent, name, hname, rs, hrs, ps, hps, out, hout, rfl⟩ := h
    obtain ⟨hresources, hresourceTable⟩ := holdsOr_distinct_iff.1 (holdsOr_iff.2 ⟨rs, hrs, rfl⟩)
    rw [((reads_pass hresourceTable).distinct _ _ _).optional] at hps
    rw [(reads_outputs hresourceTable).optional] at hout
    obtain ⟨hpasses, hpassTable⟩ := holdsOr_distinct_iff.1 (holdsOr_iff.2 ⟨ps, hps, rfl⟩)
    exact
      { version := ⟨hversion, not_ne_iff.1 hcurrent⟩
        name := hname
        resources := hresources
        resourceNames := Tabulates.nodup hresourceTable
        resourceTable := hresourceTable
        passes := hpasses
        passNames := Tabulates.nodup hpassTable
        passTable := hpassTable
        outputs := holdsOr_iff.2 ⟨out, hout, rfl⟩ }
  · intro h
    let resources : Listing Resource := ⟨g.resourceNames, g.resources⟩
    let passes : Listing Pass := ⟨g.passNames, g.passes⟩
    have hresourceTable : resources.Tabulated Resource.name := h.resourceTable
    have hpassTable : passes.Tabulated Pass.name := h.passTable
    obtain ⟨rs, hrs, hresources⟩ := holdsOr_iff.1
      ((holdsOr_distinct_iff (l := resources)).2 ⟨h.resources, hresourceTable⟩)
    obtain ⟨ps, hps, hpasses⟩ := holdsOr_iff.1
      ((holdsOr_distinct_iff (l := passes)).2 ⟨h.passes, hpassTable⟩)
    obtain ⟨out, hout, houtputs⟩ := holdsOr_iff.1 h.outputs
    refine ⟨g.version, h.version.1, not_ne_iff.2 h.version.2, g.name, h.name, rs, hrs, ps, ?_, out,
      ?_, by rw [hresources, hpasses, houtputs]⟩
    · rw [hresources, ((reads_pass hresourceTable).distinct _ _ _).optional]
      exact hps
    · rw [hresources, (reads_outputs hresourceTable).optional]
      exact hout

end FrameGraph.Document

namespace FrameGraph

/-- A document is accepted if it is one of the grammar, with the graph that it stands for. -/
theorem Graph.ofDocument_eq_ok_iff (document : Json) (g : Graph) :
    Graph.ofDocument document = .ok g ↔ Document.Form.graph document g :=
  Document.reads_graph [] document g

end FrameGraph
