import FrameGraph.Proofs.Document.Stages

namespace FrameGraph.Document

variable {ε α β : Type}

theorem bind_eq_error {x : Except ε α} {g : α → Except ε β} {f : ε} :
    (x >>= g) = .error f ↔ x = .error f ∨ ∃ a, x = .ok a ∧ g a = .error f := by
  cases x with
  | error f' => simp [bind, Except.bind]
  | ok a => simp [bind, Except.bind]

/-- A fold fails at one item, in the state that the items before it lead to. -/
theorem foldlM_eq_error {g : β → α → Except ε β} {as : List α} {b : β} {f : ε} :
    as.foldlM g b = .error f ↔
      ∃ i a b', as[i]? = some a ∧ (as.take i).foldlM g b = .ok b' ∧ g b' a = .error f := by
  induction as generalizing b with
  | nil =>
    constructor
    · intro h
      exact absurd h nofun
    · intro h
      obtain ⟨i, a, b', hi, -⟩ := h
      exact absurd hi nofun
  | cons a as ih =>
    rw [List.foldlM_cons, bind_eq_error]
    constructor
    · intro h
      obtain hfirst | ⟨b', hb', hrest⟩ := h
      · exact ⟨0, a, b, rfl, rfl, hfirst⟩
      · obtain ⟨i, a', b'', hi, hb'', hfail⟩ := ih.1 hrest
        refine ⟨i + 1, a', b'', hi, ?_, hfail⟩
        rw [List.take_succ_cons, List.foldlM_cons, hb']
        exact hb''
    · intro h
      obtain ⟨i, a', b', hi, hb', hfail⟩ := h
      cases i with
      | zero =>
        obtain rfl : a = a' := Option.some.inj hi
        obtain rfl : b = b' := Except.ok.inj hb'
        exact .inl hfail
      | succ i =>
        rw [List.take_succ_cons, List.foldlM_cons] at hb'
        obtain ⟨b'', hb'', hrest⟩ := bind_eq_ok.1 hb'
        exact .inr ⟨b'', hb'', ih.2 ⟨i, a', b', hi, hrest, hfail⟩⟩

theorem take_mapIdx (g : Nat → α → β) (as : List α) (k : Nat) :
    (as.mapIdx g).take k = (as.take k).mapIdx g := by
  apply List.ext_getElem <;> simp

/-- The cause is that an earlier entry has the name. -/
def Cause.isDuplicate : Cause → Bool
  | duplicate .. => true
  | _ => false

section

variable {what place : String} {nameOf : α → String} {read : Reader (Except Fault) α} {p : Path}
  {f : Fault}

theorem distinct_array (js : List Json) :
    Reader.distinct what place nameOf read p (.array js) =
      (js.mapIdx fun i j => (p.item i, j)).foldlM (enlist what place nameOf read) {} := rfl

/-- An entry is refused for a fault of its own or because its name is taken. -/
theorem enlist_eq_error {before : Listing α} {j : Json} :
    enlist what place nameOf read before (p, j) = .error f ↔
      read p j = .error f ∨ ∃ a i, read p j = .ok a ∧
        before.names[nameOf a]? = some i ∧
        f = ⟨p.field "name", .duplicate what place (nameOf a) i⟩ := by
  unfold enlist
  rw [bind_eq_error]
  refine or_congr_right ?_
  constructor
  · intro h
    obtain ⟨a, ha, hf⟩ := h
    cases hfind : before.names[nameOf a]? with
    | none =>
      rw [hfind] at hf
      exact absurd hf nofun
    | some i =>
      rw [hfind] at hf
      exact ⟨a, i, ha, hfind, (Except.error.inj hf).symm⟩
  · intro h
    obtain ⟨a, i, ha, hfind, rfl⟩ := h
    refine ⟨a, ha, ?_⟩
    rw [hfind]
    rfl

/-- The same entry, or one that differs in nothing but fields of stages after that of the fault. The
latter is not said of a fault that is a name taken, for which the whole entry has been read. -/
inductive SameFor (stages : List (List String)) (f : Fault) (p : Path) : Json → Json → Prop where
  | whole (j : Json) : SameFor stages f p j j
  | upTo {e e' : Entries} {key : String} {rest : Path} (hcause : f.cause.isDuplicate = false)
      (hpath : f.path = p.field key ++ rest) (h : AgreeOn (upTo stages key) e e') :
      SameFor stages f p (.object e) (.object e')

/-- Lists with the same entries before a position, and there the same for the fault. -/
structure SameUpTo (stages : List (List String)) (f : Fault) (p : Path) (k : Nat)
    (js js' : List Json) : Prop where
  before : js'.take k = js.take k
  entry : ∀ j, js[k]? = some j → ∃ j', js'[k]? = some j' ∧ SameFor stages f (p.item k) j j'

/-- In particular lists with the same entries up to a position and there. -/
theorem sameUpTo_of_take {stages : List (List String)} {k : Nat} {js js' : List Json}
    (h : js'.take (k + 1) = js.take (k + 1)) : SameUpTo stages f p k js js' where
  before := by simpa [List.take_take] using congrArg (List.take k) h
  entry j hj := by
    have hk := congrArg (fun l => l[k]?) h
    rw [List.getElem?_take_of_succ, List.getElem?_take_of_succ] at hk
    exact ⟨j, hk.trans hj, .whole j⟩

/-- What an entry is refused for is at the entry or below it, so the path tells which entry it is. -/
theorem exists_path_of_enlist (hread : Locates read) {before : Listing α} {j : Json}
    (h : enlist what place nameOf read before (p, j) = .error f) : ∃ rest, f.path = p ++ rest := by
  obtain hown | ⟨a, i, -, -, rfl⟩ := enlist_eq_error.1 h
  · exact exists_path_of_within (hread p j f hown)
  · exact ⟨[.field "name"], rfl⟩

/-- What an entry is refused for, another one that is the same for the fault is refused for too. -/
theorem enlist_of_sameFor {stages : List (List String)}
    (hstaged : ∀ p e e', Staged p stages e e' (read p (.object e)) (read p (.object e')))
    {before : Listing α} {j j' : Json} (hsame : SameFor stages f p j j')
    (h : enlist what place nameOf read before (p, j) = .error f) :
    enlist what place nameOf read before (p, j') = .error f := by
  cases hsame with
  | whole => exact h
  | @upTo e e' key rest hcause hpath hagree =>
    obtain hown | ⟨a, i, -, -, rfl⟩ := enlist_eq_error.1 h
    · obtain ⟨key', -, ⟨rest', hpath'⟩, hstage⟩ := hstaged p e e' f hown
      have hkey : key = key' := key_eq_of_path (hpath.symm.trans hpath')
      exact enlist_eq_error.2 (.inl (hstage (hkey ▸ hagree)))
    · simp [Cause.isDuplicate] at hcause

/-- A fault in an entry stays with any list that is the same up to it. -/
theorem distinct_of_sameUpTo {stages : List (List String)} (hread : Locates read)
    (hstaged : ∀ p e e', Staged p stages e e' (read p (.object e)) (read p (.object e')))
    {j : Json} {k : Nat} {rest : Path} (h : Reader.distinct what place nameOf read p j = .error f)
    (hpath : f.path = p.item k ++ rest) :
    ∃ js, j = .array js ∧ ∀ js', SameUpTo stages f p k js js' →
      Reader.distinct what place nameOf read p (.array js') = .error f := by
  cases j with
  | array js =>
    refine ⟨js, rfl, fun js' hsame => ?_⟩
    rw [distinct_array] at h
    obtain ⟨i, x, before, hx, hbefore, hfail⟩ := foldlM_eq_error.1 h
    obtain ⟨j, hj, rfl⟩ : ∃ j, js[i]? = some j ∧ (p.item i, j) = x := by
      simpa [List.getElem?_mapIdx] using hx
    obtain ⟨rest', hpath'⟩ := exists_path_of_enlist hread hfail
    obtain rfl : k = i := by
      have hpaths := hpath.symm.trans hpath'
      have hstep : k = i ∧ rest = rest' := by simpa [Path.item] using hpaths
      exact hstep.1
    obtain ⟨j', hj', hentry⟩ := hsame.entry j hj
    rw [distinct_array]
    have hfail' := enlist_of_sameFor hstaged hentry hfail
    refine foldlM_eq_error.2 ⟨k, (p.item k, j'), before, ?_, ?_, hfail'⟩
    · simp [List.getElem?_mapIdx, hj']
    · have htake : (js'.mapIdx fun i j => (p.item i, j)).take k =
          (js.mapIdx fun i j => (p.item i, j)).take k := by
        rw [take_mapIdx, take_mapIdx, hsame.before]
      rw [htake]
      exact hbefore
  | _ =>
    obtain rfl := Except.error.inj h
    have hlength := congrArg List.length hpath
    simp [Path.item] at hlength

end

/-- What is read before the resources. -/
def header (o : Entries) : Except Fault (UInt32 × String) := do
  let version ← Fields.required ⟨[], o⟩ "version" Reader.word
  if version ≠ Graph.currentVersion then
    blame ⟨Path.field [] "version", .version version Graph.currentVersion⟩
  let name ← Fields.required ⟨[], o⟩ "name" Reader.text
  return (version, name)

def resourceList : Reader (Except Fault) (Listing Resource) :=
  Reader.distinct "resource" "resources" Resource.name Reader.resource

def passList (declared : Listing Resource) : Reader (Except Fault) (Listing Pass) :=
  Reader.distinct "pass" "passes" Pass.name (Reader.pass declared)

theorem graph_object (o : Entries) :
    Reader.graph [] (.object o) = header o >>= fun head =>
      Fields.optional ⟨[], o⟩ "resources" resourceList >>= fun resources =>
      Fields.optional ⟨[], o⟩ "passes" (passList (resources.getD {})) >>= fun passes =>
      Fields.optional ⟨[], o⟩ "outputs" (Reader.outputs (resources.getD {})) >>= fun outputs =>
      return { version := head.1, name := head.2, resources := (resources.getD {}).entries,
               passes := (passes.getD {}).entries, outputs := outputs.getD .none,
               resourceNames := (resources.getD {}).names, passNames := (passes.getD {}).names } := by
  unfold Reader.graph header
  rw [object_bind]
  cases Fields.required ⟨[], o⟩ "version" Reader.word with
  | error f => rfl
  | ok version =>
    simp only [bind, Except.bind]
    by_cases hversion : version ≠ Graph.currentVersion
    · rw [if_pos hversion, if_pos hversion]
      rfl
    · rw [if_neg hversion, if_neg hversion]
      cases Fields.required ⟨[], o⟩ "name" Reader.text <;> rfl

section

variable {o o' : Entries} {f : Fault}

/-- A fault at a field is at no field of other keys. -/
theorem not_atField {keys : List String} {key : String} {rest : Path}
    (hpath : f.path = .field key :: rest) (hkey : key ∉ keys) : ¬AtField [] keys f := by
  intro hat
  obtain ⟨key', hkey', rest', hpath'⟩ := hat
  have heq : key = key' := key_eq_of_path (p := []) (hpath.symm.trans hpath')
  exact hkey (heq ▸ hkey')

theorem confined_header : Confined [] ["version", "name"] o o' (header o) (header o') := by
  refine (confined_required locates_word (by decide)).bind fun version => ?_
  refine .check (by decide) ?_
  exact (confined_required locates_text (by decide)).bind fun name => confined_ok _

theorem blames_header : Blames (AtField [] ["version", "name"]) (header o) := by
  have hheader : Confined [] ["version", "name"] o o (header o) (header o) := confined_header
  exact hheader.blames

theorem locates_resourceList : Locates resourceList :=
  locates_resource.distinct (fun _ _ _ h => exists_object_of_ok h) _ _ _

theorem confined_resourceList :
    Confined [] ["resources"] o o' (Fields.optional ⟨[], o⟩ "resources" resourceList)
      (Fields.optional ⟨[], o'⟩ "resources" resourceList) :=
  confined_optional locates_resourceList (by decide)

theorem locates_passList {declared : Listing Resource} (hd : declared.Tabulated Resource.name) :
    Locates (passList declared) :=
  (locates_pass hd).distinct (fun _ _ _ h => exists_object_of_ok h) _ _ _

theorem tabulated_resourceList {m : Option (Listing Resource)}
    (h : Fields.optional ⟨[], o⟩ "resources" resourceList = .ok m) :
    (m.getD {}).Tabulated Resource.name :=
  tabulated_of_optional reads_resource h

theorem optional_eq_error {read : Reader (Except Fault) α} {p : Path} {key : String} :
    Fields.optional ⟨p, o⟩ key read = .error f ↔
      ∃ j, Json.present? o key = some j ∧ read (p.field key) j = .error f := by
  unfold Fields.optional Fields.find?
  dsimp only
  cases Json.present? o key with
  | none => simp [pure, Except.pure]
  | some j =>
    cases hread : read (p.field key) j <;> simp [Fields.pathOf, hread, Functor.map, Except.map]

/-- A fault that the first part does not have is one of the second. -/
theorem Blames.passed {P : Fault → Prop} {x : Except Fault α} {g : α → Except Fault β}
    (hx : Blames P x) (hf : ¬P f) (h : (x >>= g) = .error f) : ∃ a, x = .ok a ∧ g a = .error f := by
  obtain hfirst | hrest := bind_eq_error.1 h
  · exact absurd (hx f hfirst) hf
  · exact hrest

/-- A fault that the second part does not have is one of the first. -/
theorem Blames.stopped {P : Fault → Prop} {x : Except Fault α} {g : α → Except Fault β}
    (hg : ∀ a, x = .ok a → Blames P (g a)) (hf : ¬P f) (h : (x >>= g) = .error f) :
    x = .error f := by
  obtain hfirst | ⟨a, ha, hrest⟩ := bind_eq_error.1 h
  · exact hfirst
  · exact absurd (hg a ha f hrest) hf

/-- A fault in the resources is that of the list, with any passes and outputs. -/
theorem resources_eq_error {rest : Path} (h : Reader.graph [] (.object o) = .error f)
    (hpath : f.path = .field "resources" :: rest) :
    ∃ j, Json.present? o "resources" = some j ∧ resourceList [.field "resources"] j = .error f ∧
      ∀ o' j', AgreeOn ["version", "name"] o o' → Json.present? o' "resources" = some j' →
        resourceList [.field "resources"] j' = .error f →
        Reader.graph [] (.object o') = .error f := by
  rw [graph_object] at h
  obtain ⟨head, hhead, h⟩ := blames_header.passed (not_atField hpath (by decide)) h
  have hlater : Fields.optional ⟨[], o⟩ "resources" resourceList = .error f := by
    refine Blames.stopped (P := AtField [] ["passes", "outputs"]) (fun resources hread => ?_)
      (not_atField hpath (by decide)) h
    have hd := tabulated_resourceList hread
    refine (blames_optional (locates_passList hd) (by decide)).bind fun passes _ => ?_
    exact (blames_optional (locates_outputs hd) (by decide)).bind fun outputs _ => blames_ok _
  obtain ⟨j, hj, hlist⟩ := optional_eq_error.1 hlater
  refine ⟨j, hj, hlist, fun o' j' hagree hj' hlist' => ?_⟩
  have hhead' := (confined_header.same hagree).symm.trans hhead
  rw [graph_object]
  refine bind_eq_error.2 (.inr ⟨head, hhead', ?_⟩)
  exact bind_eq_error.2 (.inl (optional_eq_error.2 ⟨j', hj', hlist'⟩))

/-- A fault in the passes is that of the list, with any outputs. -/
theorem passes_eq_error {rest : Path} (h : Reader.graph [] (.object o) = .error f)
    (hpath : f.path = .field "passes" :: rest) :
    ∃ declared j, declared.Tabulated Resource.name ∧ Json.present? o "passes" = some j ∧
      passList declared [.field "passes"] j = .error f ∧
      ∀ o' j', AgreeOn ["version", "name", "resources"] o o' →
        Json.present? o' "passes" = some j' → passList declared [.field "passes"] j' = .error f →
        Reader.graph [] (.object o') = .error f := by
  rw [graph_object] at h
  obtain ⟨head, hhead, h⟩ := blames_header.passed (not_atField hpath (by decide)) h
  obtain ⟨resources, hresources, h⟩ :=
    (blames_optional locates_resourceList (List.mem_singleton_self _)).passed
      (not_atField hpath (by decide)) h
  have hd := tabulated_resourceList hresources
  have hlater :
      Fields.optional ⟨[], o⟩ "passes" (passList (resources.getD {})) = .error f := by
    refine Blames.stopped (P := AtField [] ["outputs"]) (fun passes _ => ?_)
      (not_atField hpath (by decide)) h
    exact (blames_optional (locates_outputs hd) (by decide)).bind fun outputs _ => blames_ok _
  obtain ⟨j, hj, hlist⟩ := optional_eq_error.1 hlater
  refine ⟨resources.getD {}, j, hd, hj, hlist, fun o' j' hagree hj' hlist' => ?_⟩
  have hhead' := (confined_header.same (hagree.mono (by decide))).symm.trans hhead
  have hresources' := (confined_resourceList.same (hagree.mono (by decide))).symm.trans hresources
  rw [graph_object]
  refine bind_eq_error.2 (.inr ⟨head, hhead', ?_⟩)
  refine bind_eq_error.2 (.inr ⟨resources, hresources', ?_⟩)
  exact bind_eq_error.2 (.inl (optional_eq_error.2 ⟨j', hj', hlist'⟩))

end

end FrameGraph.Document

namespace FrameGraph

open Document

/-- What is no object is refused as a whole. -/
theorem Graph.exists_object_of_path {d : Json} {f : Fault} {step : Step} {rest : Path}
    (h : Graph.ofDocument d = .error f) (hpath : f.path = step :: rest) : ∃ o, d = .object o := by
  cases d with
  | object o => exact ⟨o, rfl⟩
  | _ =>
    obtain rfl := Except.error.inj h
    exact absurd hpath nofun

/-- A fault in an entry, as its path tells, stands whatever comes after it. If it is in a resource, all
documents have it with the same version, name and resources up to that one; if it is in a pass, all with
the same version, name, resources and passes up to that one. Of the entry itself the later stages make
no difference either, unless the fault is that its name is taken. -/
theorem Graph.first_fault_stands {d : Json} {f : Fault} (h : Graph.ofDocument d = .error f) :
    (∀ k rest, f.path = .field "resources" :: .item k :: rest →
      ∃ o js, d = .object o ∧ Json.present? o "resources" = some (.array js) ∧
        ∀ o' js', AgreeOn ["version", "name"] o o' →
          Json.present? o' "resources" = some (.array js') →
          SameUpTo resourceStages f [.field "resources"] k js js' →
          Graph.ofDocument (.object o') = .error f) ∧
    (∀ k rest, f.path = .field "passes" :: .item k :: rest →
      ∃ o js, d = .object o ∧ Json.present? o "passes" = some (.array js) ∧
        ∀ o' js', AgreeOn ["version", "name", "resources"] o o' →
          Json.present? o' "passes" = some (.array js') →
          SameUpTo passStages f [.field "passes"] k js js' →
          Graph.ofDocument (.object o') = .error f) := by
  constructor
  · intro k rest hpath
    obtain ⟨o, rfl⟩ := Graph.exists_object_of_path h hpath
    obtain ⟨j, hj, hlist, hstands⟩ := resources_eq_error h hpath
    obtain ⟨js, rfl, hjs⟩ := distinct_of_sameUpTo (p := [.field "resources"]) locates_resource
      (fun _ _ _ => staged_resource) hlist hpath
    refine ⟨o, js, rfl, hj, fun o' js' hagree hj' hsame => ?_⟩
    exact hstands o' _ hagree hj' (hjs js' hsame)
  · intro k rest hpath
    obtain ⟨o, rfl⟩ := Graph.exists_object_of_path h hpath
    obtain ⟨declared, j, hd, hj, hlist, hstands⟩ := passes_eq_error h hpath
    obtain ⟨js, rfl, hjs⟩ := distinct_of_sameUpTo (p := [.field "passes"]) (locates_pass hd)
      (fun _ _ _ => staged_pass hd) hlist hpath
    refine ⟨o, js, rfl, hj, fun o' js' hagree hj' hsame => ?_⟩
    exact hstands o' _ hagree hj' (hjs js' hsame)

namespace Graph

/-- A document with resources and passes. -/
def outline (resources passes : List Json) : Entries :=
  [("version", .natural 1), ("name", .text "outline"), ("resources", .array resources),
    ("passes", .array passes)]

/-- An image with a flag that there is not, and its further fields. -/
def boldImage (body : Entries) : Entries :=
  [("name", .text "color"), ("type", .text "image"), ("flags", .array [.text "bold"])] ++ body

/-- A pass that has a domain although it only computes. -/
def placedSort : Entries :=
  [("name", .text "sort"), ("type", .text "compute"), ("domain", .text "UI")]

def boldFault : Fault :=
  ⟨[.field "resources", .item 0, .field "flags", .item 0], .unknownWord "resource flag" "bold"⟩

def domainFault : Fault := ⟨[.field "passes", .item 0, .field "domain"], .domainOfOther⟩

theorem outlines_keep_first_fault :
    Graph.ofDocument (.object (outline [.object (boldImage []), .null] [.null])) =
        .error boldFault ∧
      Graph.ofDocument (.object (outline [.object (boldImage [("size", .text "two")])] [])) =
        .error boldFault ∧
      Graph.ofDocument (.object (outline [] [.object placedSort, .null])) =
        .error domainFault ∧
      Graph.ofDocument (.object (outline [] [.object placedSort, .text "tail"])) =
        .error domainFault := by
  have hflag : Graph.ofDocument (.object (outline [.object (boldImage []), .null] [.null])) =
      .error boldFault := by rfl
  have hdomain : Graph.ofDocument (.object (outline [] [.object placedSort, .null])) =
      .error domainFault := by rfl
  refine ⟨hflag, ?_, hdomain, ?_⟩
  · obtain ⟨o, js, ho, hjs, hstands⟩ := (first_fault_stands hflag).1 0 _ rfl
    obtain rfl := Json.object.inj ho
    obtain rfl := Json.array.inj (Option.some.inj hjs)
    have hagree : AgreeOn (upTo resourceStages "flags") (boldImage [])
        (boldImage [("size", .text "two")]) := by
      have hkeys : upTo resourceStages "flags" = ["name", "type", "condition", "repeat", "flags"] := by
        decide
      simp [AgreeOn, hkeys, boldImage, Json.present?, Json.isNull]
    refine hstands _ _ ?_ rfl ⟨rfl, fun j hj => ?_⟩
    · simp [AgreeOn, outline, Json.present?, Json.isNull]
    · obtain rfl := Option.some.inj hj
      exact ⟨_, rfl, .upTo rfl rfl hagree⟩
  · obtain ⟨o, js, ho, hjs, hstands⟩ := (first_fault_stands hdomain).2 0 _ rfl
    obtain rfl := Json.object.inj ho
    obtain rfl := Json.array.inj (Option.some.inj hjs)
    refine hstands _ _ ?_ rfl (sameUpTo_of_take rfl)
    simp [AgreeOn, outline, Json.present?, Json.isNull]

end Graph

end FrameGraph
