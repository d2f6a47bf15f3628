import FrameGraph.Proofs.Recording.Operations

namespace FrameGraph

variable {ε τ α κ : Type}

/-- What a pass was declared as. -/
def PassRecord.request (p : PassRecord ε) : PassRequest := ⟨p.type, p.name⟩

theorem PassRecord.request_tell (p : PassRecord ε) (c : Command ImageKey BufferKey PassKey ε) :
    (p.tell c).request = p.request := by
  cases c with
  | useImage mode => cases mode <;> rfl
  | useBuffer mode => cases mode <;> rfl
  | _ => rfl

namespace Recording

/-- The records of a store, each with the key that it was given. -/
def keyed (s : Store τ α) : List (Key τ × α) := s.records.mapIdx fun n a => (s.allotment.key n, a)

theorem map_snd_keyed (s : Store τ α) : (keyed s).map (·.2) = s.records := by
  refine List.ext_getElem (by simp [keyed]) fun i _ _ => ?_
  simp [keyed]

theorem keyed_add (s : Store τ α) (name : String) (a : α) :
    keyed (s.add name a) = keyed s ++ [(s.next, a)] :=
  List.mapIdx_concat

theorem mem_keyed_iff {s : Store τ α} {k : Key τ} {a : α} : (k, a) ∈ keyed s ↔ s.get? k = some a := by
  unfold keyed
  rw [List.mem_mapIdx, Store.get?_eq_some_iff]
  constructor
  · intro h
    obtain ⟨n, hn, heq⟩ := h
    obtain ⟨hk, rfl⟩ := Prod.mk.inj heq
    exact ⟨n, hk, List.getElem?_eq_getElem hn⟩
  · intro h
    obtain ⟨n, rfl, ha⟩ := h
    obtain ⟨hn, rfl⟩ := List.getElem?_eq_some_iff.1 ha
    exact ⟨n, hn, rfl⟩

theorem nodup_keyed (s : Store τ α) : ((keyed s).map (·.1)).Nodup := by
  have hkeys : (keyed s).map (·.1) = (List.range s.records.length).map s.allotment.key := by
    refine List.ext_getElem (by simp [keyed]) fun i _ _ => ?_
    simp [keyed]
  rw [hkeys]
  exact List.Nodup.map s.allotment.injective List.nodup_range

/-- The members of one kind and the ways to find them by key and by name: they are those given out, in
order, each under a key of its own and a name of its own. -/
structure Filed (given : List (κ × α)) (nameOf : α → String) (items : List α)
    (item? : κ → Option α) (key? : String → Option κ) : Prop where
  listed : items = given.map (·.2)
  fresh : (given.map (·.1)).Nodup
  distinct : (items.map nameOf).Nodup
  found : ∀ k x, item? k = some x ↔ (k, x) ∈ given
  named : ∀ name k, key? name = some k ↔ (item? k).map nameOf = some name

/-- The store keeps what was given out, under the keys of its allotment, and a consistent table. -/
structure Numbered (given : List (Key τ × α)) (nameOf : α → String) (s : Store τ α) : Prop where
  given_eq : given = keyed s
  consistent : s.Consistent nameOf

theorem numbered_empty (allotment : Allotment τ) (nameOf : α → String) :
    Numbered [] nameOf { allotment } :=
  ⟨rfl, Store.consistent_empty allotment nameOf⟩

/-- What is numbered is on file: by key under its number, and by name as the table has it. -/
theorem Numbered.filed {given : List (Key τ × α)} {nameOf : α → String} {s : Store τ α}
    (h : Numbered given nameOf s) : Filed given nameOf s.records s.get? s.key? where
  listed := by rw [h.given_eq, map_snd_keyed]
  fresh := by
    rw [h.given_eq]
    exact nodup_keyed s
  distinct := h.consistent.nodup
  found k x := by rw [h.given_eq, mem_keyed_iff]
  named name k := by rw [h.consistent name k, Option.map_eq_some_iff]

/-- One more is given out under the next key and a new name. -/
theorem Numbered.concat {γ : Type} {past : List γ} {f : γ → Option (Key τ × α)}
    {nameOf : α → String} {s : Store τ α} (h : Numbered (past.filterMap f) nameOf s) {y : γ} {a : α}
    (hy : f y = some (s.next, a)) (ha : nameOf a ∉ s.taken) :
    Numbered ((past ++ [y]).filterMap f) nameOf (s.add (nameOf a) a) where
  given_eq := by
    rw [List.filterMap_append, List.filterMap_cons_some hy, h.given_eq, keyed_add]
    rfl
  consistent := h.consistent.add (Store.key?_eq_none_of_not_mem ha)

/-- Nothing more is given out. -/
theorem Numbered.skip {γ : Type} {past : List γ} {f : γ → Option (Key τ × α)}
    {nameOf : α → String} {s : Store τ α} (h : Numbered (past.filterMap f) nameOf s) {y : γ}
    (hy : f y = none) : Numbered ((past ++ [y]).filterMap f) nameOf s := by
  rw [List.filterMap_append, List.filterMap_cons_none hy, List.filterMap_nil, List.append_nil]
  exact h

/-- A call: a request for a key, or a command. -/
inductive Call (ε : Type) where
  | image (q : ImageRequest)
  | buffer (q : BufferRequest)
  | pass (q : PassRequest)
  | command (c : Command ImageKey BufferKey PassKey ε)

/-- What a call that succeeds returns. -/
inductive Answer where
  | image (k : ImageKey)
  | buffer (k : BufferKey)
  | pass (k : PassKey)
  | done

def Call.perform : Call ε → Action (Recording ε) Answer
  | .image q => Answer.image <$> engine.image q
  | .buffer q => Answer.buffer <$> engine.buffer q
  | .pass q => Answer.pass <$> engine.pass q
  | .command c => (fun _ => .done) <$> engine.command c

/-- What a call that succeeds answers, and the recording that it leaves. -/
inductive Call.Gives (r : Recording ε) : Call ε → Answer → Recording ε → Prop
  | image (q : ImageRequest) :
    Gives r (.image q) (.image r.imageStore.next)
      { r with imageStore := r.imageStore.add q.name q }
  | buffer (q : BufferRequest) :
    Gives r (.buffer q) (.buffer r.bufferStore.next)
      { r with bufferStore := r.bufferStore.add q.name q }
  | pass (q : PassRequest) :
    Gives r (.pass q) (.pass r.passStore.next)
      { r with passStore := r.passStore.add q.name { name := q.name, type := q.type } }
  | tell {c : Command ImageKey BufferKey PassKey ε} {k : PassKey} (hc : c.pass? = some k)
    {p : PassRecord ε} (hp : r.pass? k = some p) :
    Gives r (.command c) .done { r with passStore := r.passStore.modify k (·.tell c) }
  | setPresent (image : ImageKey) :
    Gives r (.command (.setPresent image)) .done { r with present := some image }
  | exportImage (image : ImageKey) :
    Gives r (.command (.exportImage image)) .done
      { r with exportedImages := r.exportedImages ++ [image] }
  | exportBuffer (buffer : BufferKey) :
    Gives r (.command (.exportBuffer buffer)) .done
      { r with exportedBuffers := r.exportedBuffers ++ [buffer] }

/-- What the call would declare, or set for good, is there already, or the pass that it is about is
not. -/
def Call.Clashes (r : Recording ε) : Call ε → Prop
  | .image q => q.name ∈ r.imageStore.taken
  | .buffer q => q.name ∈ r.bufferStore.taken
  | .pass q => q.name ∈ r.passStore.taken
  | .command (.setPresent _) => r.present.isSome = true
  | .command (.exportImage _) | .command (.exportBuffer _) => False
  | .command c => ∃ k, c.pass? = some k ∧ r.pass? k = none

/-- A call changes the recording as it should, or it clashes with it and changes nothing. -/
def Call.Does (c : Call ε) (r : Recording ε) : Prop :=
  (c.Clashes r ∧ ∃ log e, c.perform r = ⟨r, log, .error e⟩) ∨
    (¬c.Clashes r ∧ ∃ a r' log, c.perform r = ⟨r', log, .ok a⟩ ∧ Gives r c a r')

/-- A call that declares does so, unless the name is taken. -/
theorem Call.does_of_declare {c : Call ε} {r : Recording ε} {what name : String} {a : α}
    {store : Recording ε → Store τ α} {put : Recording ε → Store τ α → Recording ε}
    {f : Key τ → Answer} (hperform : c.perform = f <$> declare what name a store put)
    (hclash : c.Clashes r ↔ name ∈ (store r).taken)
    (hgives : Gives r c (f (store r).next) (put r ((store r).add name a))) : c.Does r := by
  unfold Call.Does
  rw [hperform, hclash, Action.map_apply]
  by_cases hname : name ∈ (store r).taken
  · rw [declare_of_mem r hname]
    exact .inl ⟨hname, _, _, rfl⟩
  · rw [declare_of_not_mem r hname]
    exact .inr ⟨hname, _, _, _, rfl, hgives⟩

/-- A command about a pass tells the pass, unless there is no such pass. -/
theorem Call.does_of_pass? {c : Command ImageKey BufferKey PassKey ε} {k : PassKey}
    (hc : c.pass? = some k) {r : Recording ε}
    (hclash : (Call.command c).Clashes r ↔ ∃ k, c.pass? = some k ∧ r.pass? k = none) :
    (Call.command c).Does r := by
  have hperform : (Call.command c).perform = (fun _ => .done) <$> updatePass k (·.tell c) :=
    congrArg (_ <$> ·) (perform_of_pass? hc)
  have hknown : (Call.command c).Clashes r ↔ r.pass? k = none := by
    rw [hclash, hc]
    simp
  unfold Call.Does
  rw [hperform, hknown, Action.map_apply]
  cases hp : r.pass? k with
  | none =>
    rw [updatePass_of_none r hp]
    exact .inl ⟨rfl, _, _, rfl⟩
  | some p =>
    rw [updatePass_of_isSome r (by rw [hp]; rfl)]
    exact .inr ⟨Option.some_ne_none p, _, _, _, rfl, .tell hc hp⟩

/-- The first image to present is set, and no other. -/
theorem Call.does_setPresent (image : ImageKey) (r : Recording ε) :
    Does (.command (.setPresent image)) r := by
  let c : Call ε := .command (.setPresent image)
  have hperform : c.perform =
      (fun _ => .done) <$> (Recording.perform (.setPresent image) : Action (Recording ε) Unit) := rfl
  have hclash : c.Clashes r ↔ r.present.isSome = true := Iff.rfl
  unfold Call.Does
  rw [hperform, hclash, Action.map_apply]
  cases hp : r.present with
  | none =>
    rw [setPresent_of_none r image hp]
    exact .inr ⟨Bool.false_ne_true, _, _, _, rfl, .setPresent image⟩
  | some k =>
    rw [setPresent_of_isSome r image (by rw [hp]; rfl)]
    exact .inl ⟨rfl, _, _, rfl⟩

/-- What one call does, whatever it is. -/
theorem Call.does (c : Call ε) (r : Recording ε) : c.Does r := by
  cases c with
  | image q =>
    have hperform : (Call.image q : Call ε).perform = .image <$> declareImage q := rfl
    exact does_of_declare hperform Iff.rfl (.image q)
  | buffer q =>
    have hperform : (Call.buffer q : Call ε).perform = .buffer <$> declareBuffer q := rfl
    exact does_of_declare hperform Iff.rfl (.buffer q)
  | pass q =>
    have hperform : (Call.pass q : Call ε).perform = .pass <$> declarePass q := rfl
    exact does_of_declare hperform Iff.rfl (.pass q)
  | command c =>
    cases c with
    | setPresent image => exact does_setPresent image r
    | exportImage image => exact .inr ⟨not_false, _, _, _, rfl, .exportImage image⟩
    | exportBuffer buffer => exact .inr ⟨not_false, _, _, _, rfl, .exportBuffer buffer⟩
    | _ => exact does_of_pass? rfl Iff.rfl

/-- A call with what it returned. -/
structure Reply (ε : Type) where
  call : Call ε
  result : Except Error Answer

namespace Reply

/-- The key and the image that were given out. -/
def image? : Reply ε → Option (ImageKey × ImageRequest)
  | ⟨.image q, .ok (.image k)⟩ => some (k, q)
  | _ => none

/-- The key and the buffer that were given out. -/
def buffer? : Reply ε → Option (BufferKey × BufferRequest)
  | ⟨.buffer q, .ok (.buffer k)⟩ => some (k, q)
  | _ => none

/-- The key and the pass that were given out. -/
def pass? : Reply ε → Option (PassKey × PassRequest)
  | ⟨.pass q, .ok (.pass k)⟩ => some (k, q)
  | _ => none

/-- An image to present was set. -/
def Presents : Reply ε → Prop
  | ⟨.command (.setPresent _), .ok _⟩ => True
  | _ => False

end Reply

/-- The recording after calls. -/
def after (r : Recording ε) (calls : List (Call ε)) : Recording ε :=
  calls.foldl (fun r c => (c.perform r).state) r

/-- Calls with what each of them returns in its turn. -/
def replies : Recording ε → List (Call ε) → List (Reply ε)
  | _, [] => []
  | r, c :: calls => ⟨c, (c.perform r).result⟩ :: replies (c.perform r).state calls

theorem replies_append (r : Recording ε) (calls more : List (Call ε)) :
    replies r (calls ++ more) = replies r calls ++ replies (after r calls) more := by
  induction calls generalizing r with
  | nil => rfl
  | cons c calls ih => exact congrArg (_ :: ·) (ih _)

/-- What makes a call fail, told by the calls before it and not by the recording. -/
def Call.Refused (past : List (Reply ε)) : Call ε → Prop
  | .image q => ∃ k q', (k, q') ∈ past.filterMap Reply.image? ∧ q'.name = q.name
  | .buffer q => ∃ k q', (k, q') ∈ past.filterMap Reply.buffer? ∧ q'.name = q.name
  | .pass q => ∃ k q', (k, q') ∈ past.filterMap Reply.pass? ∧ q'.name = q.name
  | .command (.setPresent _) => ∃ y ∈ past, y.Presents
  | .command (.exportImage _) | .command (.exportBuffer _) => False
  | .command c => ∃ k, c.pass? = some k ∧ ∀ q, (k, q) ∉ past.filterMap Reply.pass?

/-- The recording holds what the calls before it gave out, under the keys that they answered. -/
structure Holds (past : List (Reply ε)) (r : Recording ε) : Prop where
  images : Filed (past.filterMap Reply.image?) (·.name) r.images r.image? r.imageKey?
  buffers : Filed (past.filterMap Reply.buffer?) (·.name) r.buffers r.buffer? r.bufferKey?
  passes : Filed (past.filterMap Reply.pass?) (·.name) (r.passes.map (·.request))
    (fun k => (r.pass? k).map (·.request)) r.passKey?
  present : r.present.isSome = true ↔ ∃ y ∈ past, y.Presents

/-- What a call does to a recording with a past: it fails exactly if it is refused, then changes
nothing, and otherwise changes what it names. -/
structure Call.Obeys (c : Call ε) (past : List (Reply ε)) (r : Recording ε) : Prop where
  refused : (∃ e, (c.perform r).result = .error e) ↔ c.Refused past
  unchanged : ∀ e, (c.perform r).result = .error e → (c.perform r).state = r
  changed : ∀ a, (c.perform r).result = .ok a → Gives r c a (c.perform r).state

/-- What was declared in one recording is declared alike, under the same key, in the other. -/
structure Lasts (r r' : Recording ε) : Prop where
  images : ∀ k q, r.image? k = some q → r'.image? k = some q
  imageKeys : ∀ name k, r.imageKey? name = some k → r'.imageKey? name = some k
  buffers : ∀ k q, r.buffer? k = some q → r'.buffer? k = some q
  bufferKeys : ∀ name k, r.bufferKey? name = some k → r'.bufferKey? name = some k
  passes : ∀ k q, (r.pass? k).map (·.request) = some q → (r'.pass? k).map (·.request) = some q
  passKeys : ∀ name k, r.passKey? name = some k → r'.passKey? name = some k

/-- The invariant of a run. -/
structure Tracks (past : List (Reply ε)) (r : Recording ε) : Prop where
  images : Numbered (past.filterMap Reply.image?) (·.name) r.imageStore
  buffers : Numbered (past.filterMap Reply.buffer?) (·.name) r.bufferStore
  passes : Numbered (past.filterMap Reply.pass?) (·.name) (r.passStore.map (·.request))
  present : r.present.isSome = true ↔ ∃ y ∈ past, y.Presents

variable {past : List (Reply ε)} {r r' : Recording ε}

theorem Tracks.holds (h : Tracks past r) : Holds past r where
  images := h.images.filed
  buffers := h.buffers.filed
  passes := by
    have hget : (r.passStore.map (·.request)).get? = fun k => (r.pass? k).map (·.request) :=
      funext (r.passStore.get?_map _)
    have hfiled := h.passes.filed
    rw [hget] at hfiled
    exact hfiled
  present := h.present

/-- The table has the names of what was given out. -/
theorem Filed.exists_given_iff {given : List (κ × α)} {nameOf : α → String} {items : List α}
    {item? : κ → Option α} {key? : String → Option κ} (h : Filed given nameOf items item? key?)
    (name : String) :
    (∃ k a, (k, a) ∈ given ∧ nameOf a = name) ↔ (key? name).isSome = true := by
  simp only [Option.isSome_iff_exists, h.named, Option.map_eq_some_iff, h.found]

/-- A call that clashes with the recording is one that its past refuses. -/
theorem Holds.refused_iff (h : Holds past r) (c : Call ε) : c.Refused past ↔ c.Clashes r := by
  have hpass (k : PassKey) :
      (∀ q, (k, q) ∉ past.filterMap Reply.pass?) ↔ r.pass? k = none := by
    simp only [← h.passes.found, Option.map_eq_some_iff, Option.eq_none_iff_forall_ne_some]
    exact ⟨fun hk p hp => hk _ ⟨p, hp, rfl⟩, fun hk q hq => hq.elim fun p hp => hk p hp.1⟩
  have htell (c : Command ImageKey BufferKey PassKey ε) :
      (∃ k, c.pass? = some k ∧ ∀ q, (k, q) ∉ past.filterMap Reply.pass?) ↔
        ∃ k, c.pass? = some k ∧ r.pass? k = none :=
    exists_congr fun k => and_congr_right fun _ => hpass k
  cases c with
  | image q => exact (h.images.exists_given_iff q.name).trans (r.imageStore.mem_taken_iff _).symm
  | buffer q => exact (h.buffers.exists_given_iff q.name).trans (r.bufferStore.mem_taken_iff _).symm
  | pass q => exact (h.passes.exists_given_iff q.name).trans (r.passStore.mem_taken_iff _).symm
  | command c =>
    cases c with
    | setPresent image => exact h.present.symm
    | exportImage | exportBuffer => exact Iff.rfl
    | _ => exact htell _

/-- The invariant over a call that sets no image to present. -/
theorem present_concat {y : Reply ε} (h : r.present.isSome = true ↔ ∃ y ∈ past, y.Presents)
    (hy : ¬y.Presents) : r.present.isSome = true ↔ ∃ x ∈ past ++ [y], x.Presents := by
  rw [h]
  simp [hy]

/-- A call that gives nothing out, on a recording that declares the same. -/
theorem Tracks.skip (h : Tracks past r) {y : Reply ε} (hi : y.image? = none)
    (hb : y.buffer? = none) (hp : y.pass? = none) (hpresents : ¬y.Presents)
    (himages : r'.imageStore = r.imageStore) (hbuffers : r'.bufferStore = r.bufferStore)
    (hpasses : r'.passStore.map (·.request) = r.passStore.map (·.request))
    (hpresent : r'.present = r.present) : Tracks (past ++ [y]) r' where
  images := himages ▸ h.images.skip hi
  buffers := hbuffers ▸ h.buffers.skip hb
  passes := hpasses ▸ h.passes.skip hp
  present := hpresent ▸ present_concat h.present hpresents

theorem Tracks.fail (h : Tracks past r) (c : Call ε) (e : Error) :
    Tracks (past ++ [⟨c, .error e⟩]) r := by
  have hpresents : ¬Reply.Presents (⟨c, .error e⟩ : Reply ε) := by
    cases c with
    | command c => cases c <;> exact not_false
    | _ => exact not_false
  exact h.skip (by cases c <;> rfl) (by cases c <;> rfl) (by cases c <;> rfl) hpresents rfl rfl rfl
    rfl

theorem Tracks.succeed (h : Tracks past r) {c : Call ε} {a : Answer} (hg : Call.Gives r c a r')
    (hclash : ¬c.Clashes r) : Tracks (past ++ [⟨c, .ok a⟩]) r' := by
  cases hg with
  | image q =>
    exact ⟨h.images.concat rfl hclash, h.buffers.skip rfl, h.passes.skip rfl,
      present_concat h.present not_false⟩
  | buffer q =>
    exact ⟨h.images.skip rfl, h.buffers.concat rfl hclash, h.passes.skip rfl,
      present_concat h.present not_false⟩
  | pass q =>
    refine ⟨h.images.skip rfl, h.buffers.skip rfl, ?_, present_concat h.present not_false⟩
    rw [Store.add_map]
    exact h.passes.concat (by rw [Store.next_map]; rfl) hclash
  | @tell c k hc p hp =>
    have hpresents : ¬Reply.Presents (⟨.command c, .ok .done⟩ : Reply ε) := by
      cases c with
      | setPresent => exact absurd hc nofun
      | _ => exact not_false
    exact h.skip rfl rfl rfl hpresents rfl rfl (Store.modify_map (fun p => p.request_tell c) _ k) rfl
  | setPresent image =>
    refine ⟨h.images.skip rfl, h.buffers.skip rfl, h.passes.skip rfl, ?_⟩
    exact iff_of_true rfl ⟨_, List.mem_concat_self, trivial⟩
  | exportImage image => exact h.skip rfl rfl rfl not_false rfl rfl rfl rfl
  | exportBuffer buffer => exact h.skip rfl rfl rfl not_false rfl rfl rfl rfl

theorem Tracks.step (h : Tracks past r) (c : Call ε) :
    Tracks (past ++ [⟨c, (c.perform r).result⟩]) (c.perform r).state := by
  obtain ⟨-, log, e, hperform⟩ | ⟨hclash, a, r', log, hperform, hgives⟩ := c.does r
  · rw [hperform]
    exact h.fail c e
  · rw [hperform]
    exact h.succeed hgives hclash

theorem tracks_empty (images : Allotment ImageRequest) (buffers : Allotment BufferRequest)
    (passes : Allotment PassRequest) : Tracks [] (empty images buffers passes : Recording ε) where
  images := numbered_empty _ _
  buffers := numbered_empty _ _
  passes := numbered_empty _ _
  present := by simp [empty]

theorem Tracks.run (h : Tracks past r) (calls : List (Call ε)) :
    Tracks (past ++ replies r calls) (after r calls) := by
  induction calls generalizing past r with
  | nil =>
    rw [replies, List.append_nil]
    exact h
  | cons c calls ih =>
    have hrest := ih (h.step c)
    rw [List.append_assoc] at hrest
    exact hrest

theorem Holds.obeys (h : Holds past r) (c : Call ε) : c.Obeys past r := by
  have hiff := h.refused_iff c
  obtain ⟨hclash, log, e, hperform⟩ | ⟨hclash, a, r', log, hperform, hgives⟩ := c.does r
  · refine ⟨?_, ?_, ?_⟩ <;> rw [hperform]
    · exact iff_of_true ⟨e, rfl⟩ (hiff.2 hclash)
    · exact fun _ _ => rfl
    · exact fun _ ha => absurd ha nofun
  · refine ⟨?_, ?_, ?_⟩ <;> rw [hperform]
    · exact iff_of_false (fun he => he.elim nofun) (mt hiff.1 hclash)
    · exact fun _ he => absurd he nofun
    · intro a' ha
      obtain rfl := Except.ok.inj ha
      exact hgives

/-- What was given out is still there when more was given out since. -/
theorem Holds.lasts {more : List (Reply ε)} (h : Holds past r) (h' : Holds (past ++ more) r') :
    Lasts r r' := by
  have hlast {τ α : Type} {f : Reply ε → Option (Key τ × α)} {nameOf : α → String} {items items'}
      {item? item?' key? key?'} (hf : Filed (past.filterMap f) nameOf items item? key?)
      (hf' : Filed ((past ++ more).filterMap f) nameOf items' item?' key?') :
      (∀ k a, item? k = some a → item?' k = some a) ∧
        ∀ name k, key? name = some k → key?' name = some k := by
    have hitem (k : Key τ) (a : α) (ha : item? k = some a) : item?' k = some a := by
      rw [hf'.found, List.filterMap_append]
      exact List.mem_append_left _ ((hf.found k a).1 ha)
    refine ⟨hitem, fun name k hk => ?_⟩
    obtain ⟨a, ha, hname⟩ := Option.map_eq_some_iff.1 ((hf.named name k).1 hk)
    exact (hf'.named name k).2 (Option.map_eq_some_iff.2 ⟨a, hitem k a ha, hname⟩)
  exact
    { images := (hlast h.images h'.images).1
      imageKeys := (hlast h.images h'.images).2
      buffers := (hlast h.buffers h'.buffers).1
      bufferKeys := (hlast h.buffers h'.buffers).2
      passes := (hlast h.passes h'.passes).1
      passKeys := (hlast h.passes h'.passes).2 }

/-- After any calls on an empty recording, whatever keys it gives out: it holds what they gave out, the
next call obeys what they say of it, and what is declared lasts through all further calls. -/
theorem holds_after_calls (images : Allotment ImageRequest) (buffers : Allotment BufferRequest)
    (passes : Allotment PassRequest) (calls : List (Call ε)) :
    Holds (replies (empty images buffers passes) calls) (after (empty images buffers passes) calls) ∧
      (∀ c : Call ε, c.Obeys (replies (empty images buffers passes) calls)
        (after (empty images buffers passes) calls)) ∧
      ∀ more : List (Call ε), Lasts (after (empty images buffers passes) calls)
        (after (empty images buffers passes) (calls ++ more)) := by
  have hholds (calls : List (Call ε)) : Holds (replies (empty images buffers passes) calls)
      (after (empty images buffers passes) calls) :=
    ((tracks_empty images buffers passes).run calls).holds
  refine ⟨hholds calls, fun c => (hholds calls).obeys c, fun more => ?_⟩
  have hmore := hholds (calls ++ more)
  rw [replies_append] at hmore
  exact (hholds calls).lasts hmore

end Recording

end FrameGraph
