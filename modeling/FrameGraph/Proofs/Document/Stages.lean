import FrameGraph.Proofs.Document.Blame

namespace FrameGraph.Document

variable {α β : Type} {p : Path} {e e' : Entries} {keys : List String} {key : String}

/-- Both objects have the same value under each of the keys, or none. -/
def AgreeOn (keys : List String) (e e' : Entries) : Prop :=
  ∀ key ∈ keys, Json.present? e key = Json.present? e' key

theorem AgreeOn.mono {more : List String} (h : AgreeOn more e e') (hkeys : keys ⊆ more) :
    AgreeOn keys e e' :=
  fun key hkey => h key (hkeys hkey)

/-- The fault is at a field of one of the keys, or below it. -/
def AtField (p : Path) (keys : List String) (f : Fault) : Prop :=
  ∃ key ∈ keys, ∃ rest, f.path = p.field key ++ rest

theorem key_eq_of_path {key' : String} {rest rest' : Path}
    (h : p.field key ++ rest = p.field key' ++ rest') : key = key' := by
  have hstep : key = key' ∧ rest = rest' := by simpa [Path.field] using h
  exact hstep.1

theorem exists_path_of_within {j : Json} {f : Fault} (h : Within p j f) :
    ∃ rest, f.path = p ++ rest := by
  rcases h with ⟨hpath, -⟩ | ⟨q, s, k, hpath, -⟩
  · exact ⟨[], by rw [hpath, List.append_nil]⟩
  · exact ⟨q ++ [s], by rw [hpath, List.append_assoc]⟩

/-- A result that is the same for both objects if they agree on the keys, and that blames only fields of
these keys. -/
structure Confined (p : Path) (keys : List String) (e e' : Entries) (x x' : Except Fault α) : Prop where
  same : AgreeOn keys e e' → x = x'
  blames : Blames (AtField p keys) x

theorem confined_ok (a : α) : Confined p keys e e' (.ok a) (.ok a) where
  same _ := rfl
  blames := blames_ok a

theorem confined_error (hkey : key ∈ keys) (c : Cause) :
    Confined p keys e e' (.error ⟨p.field key, c⟩ : Except Fault α) (.error ⟨p.field key, c⟩) where
  same _ := rfl
  blames := blames_error ⟨key, hkey, [], (List.append_nil _).symm⟩

theorem Confined.bind {x x' : Except Fault α} {g g' : α → Except Fault β}
    (h : Confined p keys e e' x x') (hg : ∀ a, Confined p keys e e' (g a) (g' a)) :
    Confined p keys e e' (x >>= g) (x' >>= g') where
  same hagree := by
    have hgs : g = g' := funext fun a => (hg a).same hagree
    rw [h.same hagree, hgs]
  blames := h.blames.bind fun a _ => (hg a).blames

theorem Confined.map {x x' : Except Fault α} (h : Confined p keys e e' x x') (g : α → β) :
    Confined p keys e e' (g <$> x) (g <$> x') where
  same hagree := congrArg _ (h.same hagree)
  blames := h.blames.map g

theorem Confined.check {c : Prop} [Decidable c] {cause : Cause} {x x' : Except Fault α}
    {g g' : β → Except Fault α} (hkey : key ∈ keys) (h : Confined p keys e e' x x') :
    Confined p keys e e' (if c then blame ⟨p.field key, cause⟩ >>= g else x)
      (if c then blame ⟨p.field key, cause⟩ >>= g' else x') := by
  by_cases hc : c
  · rw [if_pos hc, if_pos hc]
    exact confined_error hkey cause
  · rw [if_neg hc, if_neg hc]
    exact h

section

variable {read : Reader (Except Fault) α}

theorem atField_of_within {v : Json} {f : Fault} (hkey : key ∈ keys)
    (h : Within (p.field key) v f) : AtField p keys f :=
  ⟨key, hkey, exists_path_of_within h⟩

theorem blames_required (h : Locates read) (hkey : key ∈ keys) :
    Blames (AtField p keys) (Fields.required ⟨p, e⟩ key read) := by
  unfold Fields.required
  cases Fields.find? ⟨p, e⟩ key with
  | none => exact blames_error ⟨key, hkey, [], (List.append_nil _).symm⟩
  | some v => exact (h (p.field key) v).mono fun _ => atField_of_within hkey

theorem blames_optional (h : Locates read) (hkey : key ∈ keys) :
    Blames (AtField p keys) (Fields.optional ⟨p, e⟩ key read) := by
  unfold Fields.optional
  cases Fields.find? ⟨p, e⟩ key with
  | none => exact blames_ok none
  | some v => exact ((h (p.field key) v).mono fun _ => atField_of_within hkey).map some

theorem confined_required (h : Locates read) (hkey : key ∈ keys) :
    Confined p keys e e' (Fields.required ⟨p, e⟩ key read) (Fields.required ⟨p, e'⟩ key read) where
  same hagree := by
    unfold Fields.required Fields.find?
    dsimp only
    rw [hagree key hkey]
    rfl
  blames := blames_required h hkey

theorem confined_optional (h : Locates read) (hkey : key ∈ keys) :
    Confined p keys e e' (Fields.optional ⟨p, e⟩ key read) (Fields.optional ⟨p, e'⟩ key read) where
  same hagree := by
    unfold Fields.optional Fields.find?
    dsimp only
    rw [hagree key hkey]
    rfl
  blames := blames_optional h hkey

theorem confined_lookUp (v : Text.Vocabulary α) (s : String) (hkey : key ∈ keys) :
    Confined p keys e e' (lookUp v (p.field key) s) (lookUp v (p.field key) s) where
  same _ := rfl
  blames := blames_lookUp fun _ _ => ⟨key, hkey, [], (List.append_nil _).symm⟩

end

theorem confined_condition (hkey : "condition" ∈ keys) :
    Confined p keys e e' (Fields.condition ⟨p, e⟩) (Fields.condition ⟨p, e'⟩) :=
  (confined_optional (locates_spelled _) hkey).bind fun _ => confined_ok _

theorem confined_repetition (hkey : "repeat" ∈ keys) :
    Confined p keys e e' (Fields.repetition ⟨p, e⟩) (Fields.repetition ⟨p, e'⟩) :=
  (confined_optional locates_repetition hkey).bind fun _ => confined_ok _

theorem confined_flags {φ : Type} [Flag φ] (noun : String) (hkey : key ∈ keys) :
    Confined p keys e e' (Fields.flags ⟨p, e⟩ key noun : Except Fault (FlagSet φ))
      (Fields.flags ⟨p, e'⟩ key noun) :=
  (confined_optional (locates_flags noun) hkey).bind fun _ => confined_ok _

theorem confined_listOrEmpty {read : Reader (Except Fault) α} (h : Locates read) (hkey : key ∈ keys) :
    Confined p keys e e' (Fields.listOrEmpty ⟨p, e⟩ key read) (Fields.listOrEmpty ⟨p, e'⟩ key read) :=
  (confined_optional h.list hkey).bind fun _ => confined_ok _

theorem confined_layers (hcount : "layers" ∈ keys) (hsource : "layers_source" ∈ keys) :
    Confined p keys e e' (Fields.layers ⟨p, e⟩) (Fields.layers ⟨p, e'⟩) := by
  refine (confined_optional locates_word hcount).bind fun count => ?_
  refine (confined_optional locates_text hsource).bind fun source => ?_
  cases count with
  | none =>
    cases source with
    | none => exact confined_ok _
    | some s => exact (confined_lookUp Vocabulary.layerCounts s hsource).map _
  | some n =>
    cases source with
    | none => exact .check hcount (confined_ok _)
    | some s => exact confined_error hsource _

theorem confined_orOfImport {read : Reader (Except Fault) α} (h : Locates read) (hkey : key ∈ keys)
    (what : String) (isImport : Bool) (value : α) :
    Confined p keys e e' (Fields.orOfImport ⟨p, e⟩ key what read isImport value)
      (Fields.orOfImport ⟨p, e'⟩ key what read isImport value) := by
  refine (confined_optional h hkey).bind fun a => ?_
  cases a with
  | some a => exact confined_ok a
  | none =>
    cases isImport with
    | true => exact confined_ok value
    | false => exact confined_error hkey _

/-- The fields of images and buffers. -/
def bodyKeys : List String :=
  ["import", "extent", "layers", "layers_source", "format", "usage", "size"]

theorem confined_body (type : ResourceType) :
    Confined p bodyKeys e e' (Fields.body ⟨p, e⟩ type) (Fields.body ⟨p, e'⟩ type) := by
  cases type with
  | image =>
    refine Confined.map ?_ _
    refine (confined_optional locates_text (by decide)).bind fun importName => ?_
    refine (confined_orOfImport locates_extent (by decide) _ _ _).bind fun extent => ?_
    refine (confined_layers (by decide) (by decide)).bind fun layers => ?_
    refine (confined_orOfImport (locates_spelled _) (by decide) _ _ _).bind fun format => ?_
    refine (confined_flags _ (by decide)).bind fun usage => ?_
    exact .check (by decide) (confined_ok _)
  | buffer =>
    refine Confined.map ?_ _
    refine (confined_required locates_long (by decide)).bind fun size => ?_
    refine .check (by decide) ?_
    refine (confined_flags _ (by decide)).bind fun usage => ?_
    exact .check (by decide) (confined_ok _)

theorem confined_work (hkey : "domain" ∈ keys) (type : PassType) :
    Confined p keys e e' (Fields.work ⟨p, e⟩ type) (Fields.work ⟨p, e'⟩ type) := by
  have hother (w : Work) :
      Confined p keys e e' (Fields.work.other ⟨p, e⟩ w) (Fields.work.other ⟨p, e'⟩ w) := by
    constructor
    · intro hagree
      unfold Fields.work.other Fields.has Fields.find?
      dsimp only
      rw [hagree "domain" hkey]
      rfl
    · unfold Fields.work.other
      cases Fields.has ⟨p, e⟩ "domain" with
      | true => exact blames_error ⟨"domain", hkey, [], (List.append_nil _).symm⟩
      | false => exact blames_ok w
  cases type with
  | graphics => exact (confined_required (locates_spelled _) hkey).map _
  | compute => exact hother .compute
  | transfer => exact hother .transfer

/-- The keys of the stages up to that of a key. -/
def upTo : List (List String) → String → List String
  | [], _ => []
  | stage :: later, key => if key ∈ stage then stage else stage ++ upTo later key

/-- A fault of the first result is at a field of some stage, and it is that of the second result as well
if the objects agree on the fields of that stage and of those before it. -/
def Staged (p : Path) (stages : List (List String)) (e e' : Entries) (x x' : Except Fault α) : Prop :=
  ∀ f, x = .error f → ∃ key ∈ stages.flatten, (∃ rest, f.path = p.field key ++ rest) ∧
    (AgreeOn (upTo stages key) e e' → x' = .error f)

section

variable {stage : List String} {later : List (List String)} {x x' : Except Fault α}

theorem staged_ok {stages : List (List String)} (a : α) : Staged p stages e e' (.ok a) x' := nofun

/-- A step of the stage, and what follows it. -/
theorem Staged.stay {g g' : α → Except Fault β} (hx : Confined p stage e e' x x')
    (hg : ∀ a, Staged p (stage :: later) e e' (g a) (g' a)) :
    Staged p (stage :: later) e e' (x >>= g) (x' >>= g') := by
  intro f hf
  cases hok : x with
  | error f' =>
    rw [hok] at hf
    obtain rfl : f' = f := Except.error.inj hf
    obtain ⟨key, hkey, hpath⟩ := hx.blames f' hok
    refine ⟨key, List.mem_flatten_of_mem List.mem_cons_self hkey, hpath, fun hagree => ?_⟩
    rw [upTo, if_pos hkey] at hagree
    rw [← hx.same hagree, hok]
    rfl
  | ok a =>
    rw [hok] at hf
    obtain ⟨key, hkey, hpath, hsame⟩ := hg a f hf
    refine ⟨key, hkey, hpath, fun hagree => ?_⟩
    have hstage : stage ⊆ upTo (stage :: later) key := by
      unfold upTo
      split
      · exact List.Subset.refl _
      · exact List.subset_append_left ..
    rw [← hx.same (hagree.mono hstage), hok]
    exact hsame hagree

/-- The end of a stage. -/
theorem Staged.skip (h : Staged p later e e' x x') (hlater : ∀ key ∈ later.flatten, key ∉ stage) :
    Staged p (stage :: later) e e' x x' := by
  intro f hf
  obtain ⟨key, hkey, hpath, hsame⟩ := h f hf
  refine ⟨key, List.mem_append_right stage hkey, hpath, fun hagree => hsame ?_⟩
  rw [upTo, if_neg (hlater key hkey)] at hagree
  exact hagree.mono (List.subset_append_right ..)

theorem Staged.check {c : Prop} [Decidable c] {cause : Cause} {g g' : β → Except Fault α}
    (hkey : key ∈ stage) (h : Staged p (stage :: later) e e' x x') :
    Staged p (stage :: later) e e' (if c then blame ⟨p.field key, cause⟩ >>= g else x)
      (if c then blame ⟨p.field key, cause⟩ >>= g' else x') := by
  by_cases hc : c
  · rw [if_pos hc, if_pos hc]
    intro f hf
    obtain rfl := Except.error.inj hf
    have hmem := List.mem_flatten_of_mem (List.mem_cons_self (l := later)) hkey
    exact ⟨key, hmem, ⟨[], (List.append_nil _).symm⟩, fun _ => rfl⟩
  · rw [if_neg hc, if_neg hc]
    exact h

end

/-- The fields of resources, stage by stage. -/
def resourceStages : List (List String) :=
  [["name"], ["type"], ["condition"], ["repeat"], ["flags"], bodyKeys]

theorem staged_resource :
    Staged p resourceStages e e' (Reader.resource p (.object e)) (Reader.resource p (.object e')) := by
  unfold Reader.resource resourceStages
  rw [object_bind, object_bind]
  refine .stay (confined_required locates_name (by decide)) fun name => .skip ?_ (by decide)
  refine .stay (confined_required (locates_spelled _) (by decide)) fun type => .skip ?_ (by decide)
  refine .stay (confined_condition (by decide)) fun condition => .skip ?_ (by decide)
  refine .stay (confined_repetition (by decide)) fun repetition => .skip ?_ (by decide)
  refine .stay (confined_flags _ (by decide)) fun flags => .skip ?_ (by decide)
  exact .stay (confined_body type) fun body => staged_ok _

/-- The fields of passes, stage by stage. -/
def passStages : List (List String) :=
  [["name"], ["type"], ["condition"], ["repeat"], ["flags"], ["domain"], ["reads"], ["writes"],
    ["attachments"], ["execute"]]

theorem staged_pass {declared : Listing Resource} (hd : declared.Tabulated Resource.name) :
    Staged p passStages e e' (Reader.pass declared p (.object e))
      (Reader.pass declared p (.object e')) := by
  unfold Reader.pass passStages
  rw [object_bind, object_bind]
  refine .stay (confined_required locates_name (by decide)) fun name => .skip ?_ (by decide)
  refine .stay (confined_required (locates_spelled _) (by decide)) fun type => .skip ?_ (by decide)
  refine .stay (confined_condition (by decide)) fun condition => .skip ?_ (by decide)
  refine .stay (confined_repetition (by decide)) fun repetition => .skip ?_ (by decide)
  refine .stay (confined_flags _ (by decide)) fun flags => .skip ?_ (by decide)
  refine .stay (confined_work (by decide) type) fun work => .skip ?_ (by decide)
  refine .stay (confined_listOrEmpty (locates_use hd) (by decide)) fun reads => .skip ?_ (by decide)
  refine .stay (confined_listOrEmpty (locates_use hd) (by decide)) fun writes => .skip ?_ (by decide)
  refine .stay (confined_optional (locates_attachments hd) (by decide)) fun attachments => ?_
  refine .check (by decide) (.skip ?_ (by decide))
  exact .stay (confined_required locates_name (by decide)) fun execute => staged_ok _

end FrameGraph.Document
