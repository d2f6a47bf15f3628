import FrameGraph.Proofs.Catalog.Operations
import Mathlib.Data.List.Basic
import Mathlib.Data.List.Induction

namespace FrameGraph.Catalog

/-- A build to be done: by which engine and from which state, for which frame and with which
executors. -/
structure Job : Type 1 where
  {σ ι β π ε : Type}
  engine : Engine σ ι β π ε
  state : σ
  frame : Frame
  executors : String → Option ε

/-- What building the graph of a name leaves of a job. -/
def Job.outcome (j : Job) (name : String) (c : Catalog) : Outcome (Catalog × j.σ) Stats :=
  build j.engine name j.frame j.executors (c, j.state)

/-- An operation on a catalog. -/
inductive Call : Type 1 where
  | load (parse : Json.Parser) (folder : Folder) (name path : String)
  | insert (name : String) (g : Graph)
  | reload (parse : Json.Parser) (folder : Folder) (name path : String)
  | remove (name : String)
  | clear
  | build (name : String) (job : Job)

namespace Call

/-- The name that an operation is about; clearing is about all. -/
def name? : Call → Option String
  | load _ _ name _ | insert name _ | reload _ _ name _ | remove name | build name _ => some name
  | clear => none

/-- What an operation does to the catalog, and whether it fails. -/
def perform : Call → Action Catalog Unit
  | load parse folder name path => (fun _ => ()) <$> Catalog.load parse folder name path
  | insert name g => (fun _ => ()) <$> Catalog.insert name g
  | reload parse folder name path => (fun _ => ()) <$> Catalog.reload parse folder name path
  | remove name => fun c => ⟨c.erase name, [], .ok ()⟩
  | clear => fun _ => ⟨.empty, [], .ok ()⟩
  | build name job => fun c =>
    ⟨(job.outcome name c).state.1, (job.outcome name c).log,
      (job.outcome name c).result.map fun _ => ()⟩

/-- The operation is to put the graph under the name. -/
inductive Puts (name : String) (g : Graph) : Call → Prop
  | load {parse : Json.Parser} {folder : Folder} {path : String} (h : folder.Holds parse path g) :
    Puts name g (.load parse folder name path)
  | insert : Puts name g (.insert name g)
  | reload {parse : Json.Parser} {folder : Folder} {path : String} (h : folder.Holds parse path g) :
    Puts name g (.reload parse folder name path)

/-- The operation takes away what is under the name. -/
def Drops (name : String) : Call → Prop
  | remove name' => name' = name
  | clear => True
  | _ => False

end Call

/-- An operation and the catalog that it finds. -/
structure Turn : Type 1 where
  before : Catalog
  call : Call

namespace Turn

variable (t : Turn) (name : String)

def after : Catalog := (t.call.perform t.before).state

def Succeeds : Prop := (t.call.perform t.before).result = .ok ()

def Installs (g : Graph) : Prop := t.Succeeds ∧ t.call.Puts name g

def Builds (job : Job) : Prop := t.Succeeds ∧ t.call = .build name job

/-- Nothing under the name is put, taken away or built. -/
structure Spares : Prop where
  installs : ∀ g, ¬t.Installs name g
  drops : ¬t.call.Drops name
  builds : ∀ job, ¬t.Builds name job

end Turn

/-- The catalog after operations. -/
def after (c : Catalog) (calls : List Call) : Catalog :=
  calls.foldl (fun c x => (x.perform c).state) c

/-- The operations, each with the catalog that it finds. -/
def history : Catalog → List Call → List Turn
  | _, [] => []
  | c, x :: calls => ⟨c, x⟩ :: history (x.perform c).state calls

/-- The graph was put under the name, and since then not taken away or replaced. -/
def Since (past : List Turn) (name : String) (g : Graph) (since : List Turn) : Prop :=
  ∃ earlier t, past = earlier ++ t :: since ∧ t.Installs name g ∧
    ∀ u ∈ since, (∀ g', ¬u.Installs name g') ∧ ¬u.call.Drops name

/-- No build of the name succeeded. -/
def Unbuilt (name : String) (since : List Turn) : Prop := ∀ u ∈ since, ∀ job, ¬u.Builds name job

/-- The turn is the last build of the name that succeeded. -/
def LastBuild (name : String) (since : List Turn) (t : Turn) (job : Job) : Prop :=
  ∃ first rest, since = first ++ t :: rest ∧ t.Builds name job ∧ Unbuilt name rest

/-- What is put down of the last build is its frame. -/
def Stamped (name : String) (since : List Turn) (built : Option Frame) : Prop :=
  (built = none ∧ Unbuilt name since) ∨
    ∃ t job, LastBuild name since t job ∧ built = some job.frame

/-- The name has in the two catalogs what builds alike: into any engine from any state, with the frame
and the executors of the job, and the second catalog stays as it is. -/
def BuildsAlike (name : String) (job : Job) (c c' : Catalog) : Prop :=
  ∀ {σ ι β π : Type} (engine : Engine σ ι β π job.ε) (s : σ),
    (build engine name job.frame job.executors (c', s)).log =
        (build engine name job.frame job.executors (c, s)).log ∧
      (build engine name job.frame job.executors (c', s)).result =
        (build engine name job.frame job.executors (c, s)).result ∧
      (build engine name job.frame job.executors (c', s)).state.2 =
        (build engine name job.frame job.executors (c, s)).state.2 ∧
      ∀ m, (build engine name job.frame job.executors (c', s)).state.1.shelved? m = c'.shelved? m

/-- An operation on one name leaves the other names alone, and one that fails leaves all as it is. -/
structure Call.Confined (x : Call) (c : Catalog) : Prop where
  others : ∀ name, x.name? = some name → ∀ m, m ≠ name →
    (x.perform c).state.shelved? m = c.shelved? m
  failed : ∀ e, (x.perform c).result = .error e → (x.perform c).state = c

/-- Loading a file under a free name is inserting the graph that it holds, and fails if it holds none. -/
structure LoadsAsInserts (c : Catalog) (parse : Json.Parser) (folder : Folder) (name path : String) :
    Prop where
  holds : c.shelved? name = none → ∀ g, folder.Holds parse path g →
    (load parse folder name path c).state = (insert name g c).state ∧
      (load parse folder name path c).result = (insert name g c).result ∧
      (insert name g c).result = .ok g
  lacks : c.shelved? name = none → (∀ g, ¬folder.Holds parse path g) →
    (load parse folder name path c).state = c ∧ ∃ e, (load parse folder name path c).result = .error e

/-- The catalog is as its past has it. -/
structure Dated (past : List Turn) (c : Catalog) : Prop where
  /-- a name has the graph that was put there last -/
  stored : ∀ name g, c.graph? name = some g ↔ ∃ since, Since past name g since
  /-- it needs a build if there was none since that succeeded, or the last one was for another frame -/
  stale : ∀ name frame, c.needsRebuild name frame = true ↔
    ∃ g since, Since past name g since ∧
      (Unbuilt name since ∨ ∃ t job, LastBuild name since t job ∧ frame ≠ job.frame)
  /-- if it needs none, there was one for the frame, and building again does the same -/
  fresh : ∀ name frame, (c.graph? name).isSome = true → c.needsRebuild name frame = false →
    ∃ g since t job, Since past name g since ∧ LastBuild name since t job ∧ job.frame = frame ∧
      BuildsAlike name job t.before c

variable {name : String} {c : Catalog}

theorem shelved?_empty (name : String) : Catalog.empty.shelved? name = none := by
  simp [shelved?, empty]

theorem shelved?_put_self (c : Catalog) (name : String) (x : Shelved) :
    (c.put name x).shelved? name = some x := by
  rw [shelved?_put, if_pos rfl]

theorem shelved?_put_of_ne (c : Catalog) {name m : String} (h : m ≠ name) (x : Shelved) :
    (c.put name x).shelved? m = c.shelved? m := by
  rw [shelved?_put, if_neg h.symm]

theorem shelved?_erase_of_ne (c : Catalog) {name m : String} (h : m ≠ name) :
    (c.erase name).shelved? m = c.shelved? m := by
  rw [shelved?_erase, if_neg h.symm]

namespace Call

variable {x : Call} {g : Graph}

theorem Puts.name?_eq (h : x.Puts name g) : x.name? = some name := by
  cases h <;> rfl

theorem Puts.not_drops (h : x.Puts name g) (m : String) : ¬x.Drops m := by
  cases h <;> exact not_false

theorem Puts.unique {g' : Graph} (h : x.Puts name g) (h' : x.Puts name g') : g = g' := by
  cases h with
  | load hg => cases h' with | load hg' => exact hg.unique hg'
  | insert => cases h' with | insert => rfl
  | reload hg => cases h' with | reload hg' => exact hg.unique hg'

theorem not_drops_build (name m : String) (job : Job) : ¬(Call.build m job).Drops name := not_false

/-- What an operation can do: it fails and changes nothing, it puts a graph under its name, it takes
away, or it puts down the frame of a build. -/
inductive Does (c : Catalog) : Call → Catalog → Except Error Unit → Prop
  | fails {x : Call} (hx : ∀ name, ¬x.Drops name) (e : Error) : Does c x c (.error e)
  | puts {x : Call} {name : String} {g : Graph} (hx : x.Puts name g) :
    Does c x (c.put name { graph := g }) (.ok ())
  | remove (name : String) : Does c (.remove name) (c.erase name) (.ok ())
  | clear : Does c .clear .empty (.ok ())
  | builds {name : String} {y : Shelved} (hy : c.shelved? name = some y) (job : Job) :
    Does c (.build name job) (c.put name { y with built := some job.frame }) (.ok ())

theorem does (x : Call) (c : Catalog) : Does c x (x.perform c).state (x.perform c).result := by
  have hfails {x : Call} {y : Action Catalog Graph} (hx : x.perform = (fun _ => ()) <$> y)
      (hdrops : ∀ name, ¬x.Drops name) (hy : ∃ log e, y c = ⟨c, log, .error e⟩) :
      Does c x (x.perform c).state (x.perform c).result := by
    obtain ⟨log, e, hy⟩ := hy
    rw [hx, Action.map_apply, hy]
    exact .fails hdrops e
  have hputs {x : Call} {name : String} {g : Graph} {log : List Entry} {y : Action Catalog Graph}
      (hx : x.perform = (fun _ => ()) <$> y) (h : x.Puts name g)
      (hy : y c = ⟨c.put name { graph := g }, log, .ok g⟩) :
      Does c x (x.perform c).state (x.perform c).result := by
    rw [hx, Action.map_apply, hy]
    exact .puts h
  cases x with
  | load parse folder name path =>
    cases hc : c.shelved? name with
    | some y => exact hfails rfl (fun _ => not_false) (load_of_taken (by rw [hc]; rfl) parse folder path)
    | none =>
      obtain ⟨g, log, hg, hload⟩ | ⟨-, hload⟩ := load_cases_of_free hc parse folder path
      · exact hputs rfl (.load hg) hload
      · exact hfails rfl (fun _ => not_false) hload
  | insert name g =>
    cases hc : c.shelved? name with
    | some y => exact hfails rfl (fun _ => not_false) (insert_of_taken (by rw [hc]; rfl) g)
    | none => exact hputs rfl .insert (insert_of_free hc g)
  | reload parse folder name path =>
    cases hc : c.shelved? name with
    | none => exact hfails rfl (fun _ => not_false) ⟨_, _, reload_of_absent hc parse folder path⟩
    | some y =>
      obtain ⟨g, log, hg, hreload⟩ | ⟨-, hreload⟩ :=
        reload_cases_of_stored (by rw [hc]; rfl) parse folder path
      · exact hputs rfl (.reload hg) hreload
      · exact hfails rfl (fun _ => not_false) hreload
  | remove name => exact .remove name
  | clear => exact .clear
  | build name job =>
    show Does c _ (job.outcome name c).state.1 ((job.outcome name c).result.map fun _ => ())
    unfold Job.outcome
    cases hc : c.shelved? name with
    | none =>
      rw [build_of_absent _ _ _ _ hc]
      exact .fails (fun m => not_drops_build m name job) _
    | some y =>
      rw [build_of_stored _ _ _ _ hc]
      cases (y.graph.build job.engine job.frame job.executors job.state).result with
      | error e => exact .fails (fun m => not_drops_build m name job) e
      | ok stats => exact .builds hc job

theorem confined (x : Call) (c : Catalog) : x.Confined c := by
  have hdoes := x.does c
  generalize hc' : (x.perform c).state = c' at hdoes
  generalize hresult : (x.perform c).result = result at hdoes
  refine ⟨?_, ?_⟩ <;> rw [hc']
  · intro name hname m hm
    cases hdoes with
    | fails => rfl
    | puts hx =>
      obtain rfl := Option.some.inj (hname.symm.trans hx.name?_eq)
      exact shelved?_put_of_ne c hm _
    | remove =>
      obtain rfl := Option.some.inj hname
      exact shelved?_erase_of_ne c hm
    | clear => exact absurd hname nofun
    | builds =>
      obtain rfl := Option.some.inj hname
      exact shelved?_put_of_ne c hm _
  · intro e he
    obtain rfl := hresult.symm.trans he
    cases hdoes with
    | fails => rfl

end Call

theorem loadsAsInserts (c : Catalog) (parse : Json.Parser) (folder : Folder) (name path : String) :
    LoadsAsInserts c parse folder name path := by
  refine ⟨fun hfree g hg => ?_, fun hfree hnone => ?_⟩
  · obtain ⟨g', log, hg', hload⟩ | ⟨hnone, -⟩ := load_cases_of_free hfree parse folder path
    · obtain rfl := hg.unique hg'
      rw [hload, insert_of_free hfree g]
      exact ⟨rfl, rfl, rfl⟩
    · exact absurd hg (hnone g)
  · obtain ⟨g, log, hg, -⟩ | ⟨-, log, e, hload⟩ := load_cases_of_free hfree parse folder path
    · exact absurd hg (hnone g)
    · rw [hload]
      exact ⟨rfl, e, rfl⟩

namespace Turn

variable {t : Turn} {g : Graph} {job : Job}

theorem Installs.unique {g' : Graph} (h : t.Installs name g) (h' : t.Installs name g') : g = g' :=
  h.2.unique h'.2

theorem Builds.unique {job' : Job} (h : t.Builds name job) (h' : t.Builds name job') :
    job = job' := by
  injection h.2.symm.trans h'.2

theorem not_installs_of_drops (h : t.call.Drops name) : ¬t.Installs name g := fun hg =>
  hg.2.not_drops name h

theorem Builds.not_installs (h : t.Builds name job) : ¬t.Installs name g := by
  intro hg
  have hputs := hg.2
  rw [h.2] at hputs
  exact nomatch hputs

theorem Builds.not_drops (h : t.Builds name job) : ¬t.call.Drops name := by
  rw [h.2]
  exact Call.not_drops_build name name job

/-- A turn about another name, or about none, that takes nothing away spares the name. -/
theorem spares_of_name? (h : t.call.name? ≠ some name) (hdrops : ¬t.call.Drops name) :
    t.Spares name where
  installs _ hg := h hg.2.name?_eq
  drops := hdrops
  builds job hjob := h (by rw [hjob.2]; rfl)

/-- A turn installs a graph, takes it away, builds it or spares it. -/
theorem cases_of (t : Turn) (name : String) :
    (∃ g, t.Installs name g ∧ t.after.shelved? name = some { graph := g }) ∨
    (t.call.Drops name ∧ t.after.shelved? name = none) ∨
    (∃ job y, t.Builds name job ∧ t.before.shelved? name = some y ∧
      t.after.shelved? name = some { y with built := some job.frame }) ∨
    (t.Spares name ∧ t.after.shelved? name = t.before.shelved? name) := by
  obtain ⟨c, x⟩ := t
  have hdoes := x.does c
  unfold after
  generalize (x.perform c).state = c' at hdoes
  generalize hresult : (x.perform c).result = result at hdoes
  cases hdoes with
  | fails hx e =>
    have hfails : ¬Succeeds ⟨c, x⟩ := fun h => absurd (hresult.symm.trans h) nofun
    exact .inr (.inr (.inr ⟨⟨fun _ hg => hfails hg.1, hx name, fun _ hjob => hfails hjob.1⟩, rfl⟩))
  | @puts x m g hx =>
    by_cases hm : name = m
    · subst hm
      exact .inl ⟨g, ⟨hresult, hx⟩, shelved?_put_self c _ _⟩
    · have hother : x.name? ≠ some name := fun h => hm (Option.some.inj (h.symm.trans hx.name?_eq))
      exact .inr (.inr (.inr ⟨spares_of_name? hother (hx.not_drops name), shelved?_put_of_ne c hm _⟩))
  | remove m =>
    by_cases hm : name = m
    · subst hm
      exact .inr (.inl ⟨rfl, by rw [shelved?_erase, if_pos rfl]⟩)
    · have hother : (Call.remove m).name? ≠ some name := fun h => hm (Option.some.inj h).symm
      exact .inr (.inr (.inr ⟨spares_of_name? hother (Ne.symm hm), shelved?_erase_of_ne c hm⟩))
  | clear => exact .inr (.inl ⟨trivial, shelved?_empty name⟩)
  | @builds m y hy job =>
    by_cases hm : name = m
    · subst hm
      exact .inr (.inr (.inl ⟨job, y, ⟨hresult, rfl⟩, hy, shelved?_put_self c _ _⟩))
    · have hother : (Call.build m job).name? ≠ some name := fun h => hm (Option.some.inj h).symm
      exact .inr (.inr (.inr
        ⟨spares_of_name? hother (Call.not_drops_build name m job), shelved?_put_of_ne c hm _⟩))

end Turn

theorem after_concat (c : Catalog) (calls : List Call) (x : Call) :
    after c (calls ++ [x]) = (x.perform (after c calls)).state :=
  List.foldl_concat ..

theorem history_concat (c : Catalog) (calls : List Call) (x : Call) :
    history c (calls ++ [x]) = history c calls ++ [⟨after c calls, x⟩] := by
  induction calls generalizing c with
  | nil => rfl
  | cons y calls ih => exact congrArg (_ :: ·) (ih _)

/-- What stands before a turn of a history is the history of the catalog that the turn finds. -/
theorem exists_history_of_split {c : Catalog} {calls : List Call} {past rest : List Turn} {t : Turn}
    (h : history c calls = past ++ t :: rest) :
    ∃ first, past = history c first ∧ t.before = after c first := by
  induction calls generalizing c past with
  | nil => exact absurd h (by simp [history])
  | cons x calls ih =>
    cases past with
    | nil =>
      obtain ⟨rfl, -⟩ := List.cons.inj h
      exact ⟨[], rfl, rfl⟩
    | cons u past =>
      obtain ⟨rfl, hrest⟩ := List.cons.inj h
      obtain ⟨first, rfl, hbefore⟩ := ih hrest
      exact ⟨x :: first, rfl, hbefore⟩

theorem concat_inj {ts us : List Turn} {t u : Turn} (h : ts ++ [t] = us ++ [u]) :
    ts = us ∧ t = u := by
  obtain ⟨hinit, hlast⟩ := List.append_inj' h rfl
  exact ⟨hinit, List.singleton_inj.1 hlast⟩

/-- The graph was put by the last turn, or before it and the last turn leaves it. -/
theorem since_concat {past since : List Turn} {t : Turn} {g : Graph} :
    Since (past ++ [t]) name g since ↔ (since = [] ∧ t.Installs name g) ∨
      ∃ first, since = first ++ [t] ∧ Since past name g first ∧
        (∀ g', ¬t.Installs name g') ∧ ¬t.call.Drops name := by
  constructor
  · intro h
    obtain ⟨earlier, u, heq, hu, hsince⟩ := h
    obtain rfl | ⟨first, v, rfl⟩ := List.eq_nil_or_concat' since
    · obtain ⟨rfl, rfl⟩ := concat_inj heq
      exact .inl ⟨rfl, hu⟩
    · rw [← List.cons_append, ← List.append_assoc] at heq
      obtain ⟨rfl, rfl⟩ := concat_inj heq
      rw [List.forall_mem_append] at hsince
      exact .inr ⟨first, rfl, ⟨earlier, u, rfl, hu, hsince.1⟩, hsince.2 t (List.mem_singleton_self t)⟩
  · rintro (⟨rfl, ht⟩ | ⟨first, rfl, ⟨earlier, u, rfl, hu, hfirst⟩, ht⟩)
    · exact ⟨past, t, rfl, ht, List.forall_mem_nil _⟩
    · refine ⟨earlier, u, by simp, hu, ?_⟩
      rw [List.forall_mem_append]
      exact ⟨hfirst, List.forall_mem_singleton.2 ht⟩

theorem stamped_nil_iff {built : Option Frame} : Stamped name [] built ↔ built = none := by
  constructor
  · rintro (⟨rfl, -⟩ | ⟨t, job, ⟨first, rest, heq, -⟩, -⟩)
    · rfl
    · exact absurd heq (by simp)
  · rintro rfl
    exact .inl ⟨rfl, List.forall_mem_nil _⟩

/-- The frame put down last is that of the last turn if it is a build, and else the one before it. -/
theorem stamped_concat {since : List Turn} {t : Turn} {built : Option Frame} :
    Stamped name (since ++ [t]) built ↔ (∃ job, t.Builds name job ∧ built = some job.frame) ∨
      ((∀ job, ¬t.Builds name job) ∧ Stamped name since built) := by
  constructor
  · rintro (⟨rfl, hnone⟩ | ⟨u, job, ⟨first, rest, heq, hu, hrest⟩, rfl⟩)
    · unfold Unbuilt at hnone
      rw [List.forall_mem_append] at hnone
      exact .inr ⟨hnone.2 t (List.mem_singleton_self t), .inl ⟨rfl, hnone.1⟩⟩
    · obtain rfl | ⟨rest, v, rfl⟩ := List.eq_nil_or_concat' rest
      · obtain ⟨rfl, rfl⟩ := concat_inj heq
        exact .inl ⟨job, hu, rfl⟩
      · rw [← List.cons_append, ← List.append_assoc] at heq
        obtain ⟨rfl, rfl⟩ := concat_inj heq
        unfold Unbuilt at hrest
        rw [List.forall_mem_append] at hrest
        exact .inr ⟨hrest.2 t (List.mem_singleton_self t),
          .inr ⟨u, job, ⟨first, rest, rfl, hu, hrest.1⟩, rfl⟩⟩
  · rintro (⟨job, ht, rfl⟩ | ⟨ht, ⟨rfl, hnone⟩ | ⟨u, job, ⟨first, rest, rfl, hu, hrest⟩, rfl⟩⟩)
    · exact .inr ⟨t, job, ⟨since, [], rfl, ht, List.forall_mem_nil _⟩, rfl⟩
    · refine .inl ⟨rfl, ?_⟩
      unfold Unbuilt
      rw [List.forall_mem_append]
      exact ⟨hnone, List.forall_mem_singleton.2 ht⟩
    · refine .inr ⟨u, job, ⟨first, rest ++ [t], by simp, hu, ?_⟩, rfl⟩
      unfold Unbuilt
      rw [List.forall_mem_append]
      exact ⟨hrest, List.forall_mem_singleton.2 ht⟩

theorem exists_stamped (name : String) (since : List Turn) : ∃ built, Stamped name since built := by
  induction since using List.reverseRecOn with
  | nil => exact ⟨none, stamped_nil_iff.2 rfl⟩
  | append_singleton since t ih =>
    obtain ⟨built, hbuilt⟩ := ih
    by_cases ht : ∃ job, t.Builds name job
    · obtain ⟨job, hjob⟩ := ht
      exact ⟨_, stamped_concat.2 (.inl ⟨job, hjob, rfl⟩)⟩
    · exact ⟨built, stamped_concat.2 (.inr ⟨not_exists.1 ht, hbuilt⟩)⟩

/-- The invariant of a run: what is under a name is the graph put there last, with the frame of its last
build. -/
def Follows (past : List Turn) (c : Catalog) : Prop :=
  ∀ name y, c.shelved? name = some y ↔
    ∃ since, Since past name y.graph since ∧ Stamped name since y.built

/-- A graph that was put down and stays is under its name, with some stamp. -/
theorem Follows.exists_shelved {past since : List Turn} {g : Graph} (h : Follows past c)
    (hsince : Since past name g since) :
    ∃ built, Stamped name since built ∧ c.shelved? name = some ⟨g, built⟩ := by
  obtain ⟨built, hbuilt⟩ := exists_stamped name since
  exact ⟨built, hbuilt, (h name ⟨g, built⟩).2 ⟨since, hsince, hbuilt⟩⟩

theorem follows_empty : Follows [] ({} : Catalog) := by
  intro name y
  constructor
  · intro h
    exact absurd ((shelved?_empty name).symm.trans h) nofun
  · rintro ⟨since, ⟨earlier, t, heq, -⟩, -⟩
    exact absurd heq (by simp)

theorem Follows.step {past : List Turn} (h : Follows past c) (x : Call) :
    Follows (past ++ [⟨c, x⟩]) (x.perform c).state := by
  intro name y
  show (Turn.after ⟨c, x⟩).shelved? name = some y ↔ _
  obtain ⟨g, hg, hafter⟩ | ⟨hdrops, hafter⟩ | ⟨job, z, hjob, hbefore, hafter⟩ | ⟨hspares, hafter⟩ :=
    Turn.cases_of ⟨c, x⟩ name
  · rw [hafter]
    constructor
    · rintro ⟨⟩
      exact ⟨[], since_concat.2 (.inl ⟨rfl, hg⟩), stamped_nil_iff.2 rfl⟩
    · rintro ⟨since, hsince, hbuilt⟩
      obtain ⟨rfl, hy⟩ | ⟨-, -, -, hnot, -⟩ := since_concat.1 hsince
      · obtain ⟨graph, built⟩ := y
        obtain rfl := hg.unique hy
        obtain rfl := stamped_nil_iff.1 hbuilt
        rfl
      · exact absurd hg (hnot g)
  · rw [hafter]
    constructor
    · exact nofun
    · rintro ⟨since, hsince, -⟩
      obtain ⟨-, hy⟩ | ⟨-, -, -, -, hnot⟩ := since_concat.1 hsince
      · exact absurd hy (Turn.not_installs_of_drops hdrops)
      · exact absurd hdrops hnot
  · rw [hafter]
    constructor
    · rintro ⟨⟩
      obtain ⟨since, hsince, -⟩ := (h name z).1 hbefore
      exact ⟨since ++ [⟨c, x⟩],
        since_concat.2 (.inr ⟨since, rfl, hsince, fun _ => hjob.not_installs, hjob.not_drops⟩),
        stamped_concat.2 (.inl ⟨job, hjob, rfl⟩)⟩
    · rintro ⟨since, hsince, hbuilt⟩
      obtain ⟨-, hy⟩ | ⟨first, rfl, hfirst, -⟩ := since_concat.1 hsince
      · exact absurd hy hjob.not_installs
      · obtain ⟨built, -, hshelved⟩ := h.exists_shelved hfirst
        obtain rfl := Option.some.inj (hbefore.symm.trans hshelved)
        obtain ⟨job', hjob', hy⟩ | ⟨hnot, -⟩ := stamped_concat.1 hbuilt
        · obtain rfl := hjob.unique hjob'
          obtain ⟨graph, built⟩ := y
          obtain rfl := hy
          rfl
        · exact absurd hjob (hnot job)
  · rw [hafter, h name y]
    constructor
    · rintro ⟨since, hsince, hbuilt⟩
      exact ⟨since ++ [⟨c, x⟩],
        since_concat.2 (.inr ⟨since, rfl, hsince, hspares.installs, hspares.drops⟩),
        stamped_concat.2 (.inr ⟨hspares.builds, hbuilt⟩)⟩
    · rintro ⟨since, hsince, hbuilt⟩
      obtain ⟨-, hy⟩ | ⟨first, rfl, hfirst, -⟩ := since_concat.1 hsince
      · exact absurd hy (hspares.installs _)
      · obtain ⟨job, hjob, -⟩ | ⟨-, hstamped⟩ := stamped_concat.1 hbuilt
        · exact absurd hjob (hspares.builds job)
        · exact ⟨first, hfirst, hstamped⟩

theorem follows_after (calls : List Call) : Follows (history {} calls) (after {} calls) := by
  induction calls using List.reverseRecOn with
  | nil => exact follows_empty
  | append_singleton calls x ih =>
    rw [history_concat, after_concat]
    exact ih.step x

theorem Follows.graph?_eq_some_iff {past : List Turn} (h : Follows past c) (g : Graph) :
    c.graph? name = some g ↔ ∃ since, Since past name g since := by
  unfold graph?
  rw [Option.map_eq_some_iff]
  constructor
  · rintro ⟨y, hy, rfl⟩
    obtain ⟨since, hsince, -⟩ := (h name y).1 hy
    exact ⟨since, hsince⟩
  · rintro ⟨since, hsince⟩
    obtain ⟨built, -, hshelved⟩ := h.exists_shelved hsince
    exact ⟨_, hshelved, rfl⟩

theorem needsRebuild_of_shelved {y : Shelved} (h : c.shelved? name = some y) (frame : Frame) :
    c.needsRebuild name frame = true ↔ y.built ≠ some frame := by
  unfold needsRebuild
  rw [h]
  dsimp only
  cases y.built with
  | none => simp
  | some previous => simp [Frame.requiresRebuild, ne_comm]

theorem Follows.needsRebuild_iff {past : List Turn} (h : Follows past c) (frame : Frame) :
    c.needsRebuild name frame = true ↔ ∃ g since, Since past name g since ∧
      (Unbuilt name since ∨ ∃ t job, LastBuild name since t job ∧ frame ≠ job.frame) := by
  constructor
  · intro hstale
    cases hy : c.shelved? name with
    | none => exact absurd hstale (by simp [needsRebuild, hy])
    | some y =>
      have hbuilt := (needsRebuild_of_shelved hy frame).1 hstale
      obtain ⟨since, hsince, ⟨-, hnone⟩ | ⟨t, job, hlast, hstamp⟩⟩ := (h name y).1 hy
      · exact ⟨y.graph, since, hsince, .inl hnone⟩
      · refine ⟨y.graph, since, hsince, .inr ⟨t, job, hlast, fun heq => hbuilt ?_⟩⟩
        rw [hstamp, heq]
  · rintro ⟨g, since, hsince, hnone | ⟨t, job, hlast, hne⟩⟩
    · have hy := (h name ⟨g, none⟩).2 ⟨since, hsince, .inl ⟨rfl, hnone⟩⟩
      exact (needsRebuild_of_shelved hy frame).2 nofun
    · have hy := (h name ⟨g, some job.frame⟩).2 ⟨since, hsince, .inr ⟨t, job, hlast, rfl⟩⟩
      exact (needsRebuild_of_shelved hy frame).2 fun heq => hne (Option.some.inj heq).symm

/-- Where the graph is the same, so is the build; if the frame is put down already, nothing changes. -/
theorem buildsAlike_of_shelved {c c' : Catalog} {g : Graph} {built : Option Frame} {job : Job}
    (h : c.shelved? name = some ⟨g, built⟩) (h' : c'.shelved? name = some ⟨g, some job.frame⟩) :
    BuildsAlike name job c c' := by
  intro σ ι β π engine s
  rw [build_of_stored _ _ _ _ h, build_of_stored _ _ _ _ h']
  refine ⟨rfl, rfl, rfl, fun m => ?_⟩
  dsimp only
  cases (g.build engine job.frame job.executors s).result with
  | error e => rfl
  | ok stats =>
    rw [shelved?_put]
    by_cases hm : name = m
    · rw [if_pos hm, ← hm, h']
    · rw [if_neg hm]

/-- The graph that a name has now is the one that the last build found. -/
theorem shelved?_of_lastBuild {calls : List Call} {since : List Turn} {g : Graph} {t : Turn}
    {job : Job} (hsince : Since (history {} calls) name g since) (hlast : LastBuild name since t job) :
    ∃ built, t.before.shelved? name = some ⟨g, built⟩ := by
  obtain ⟨earlier, u, hpast, hu, hkept⟩ := hsince
  obtain ⟨first, rest, rfl, -⟩ := hlast
  rw [← List.cons_append, ← List.append_assoc] at hpast
  obtain ⟨calls', hhistory, hbefore⟩ := exists_history_of_split hpast
  have hfirst : Since (history {} calls') name g first :=
    ⟨earlier, u, hhistory.symm, hu, fun v hv => hkept v (List.mem_append_left _ hv)⟩
  obtain ⟨built, -, hshelved⟩ := (follows_after calls').exists_shelved hfirst
  exact ⟨built, hbefore ▸ hshelved⟩

theorem dated_after (calls : List Call) : Dated (history {} calls) (after {} calls) where
  stored name g := (follows_after calls).graph?_eq_some_iff g
  stale name frame := (follows_after calls).needsRebuild_iff frame
  fresh name frame hstored hfresh := by
    cases hy : (after {} calls).shelved? name with
    | none => exact absurd hstored (by simp [graph?, hy])
    | some y =>
      obtain ⟨g, built⟩ := y
      have hbuilt : built = some frame := by
        by_contra hne
        rw [(needsRebuild_of_shelved hy frame).2 hne] at hfresh
        exact Bool.noConfusion hfresh
      subst hbuilt
      obtain ⟨since, hsince, ⟨hnone, -⟩ | ⟨t, job, hlast, hstamp⟩⟩ := (follows_after calls name _).1 hy
      · exact absurd hnone nofun
      · obtain rfl := Option.some.inj hstamp
        obtain ⟨built, hbefore⟩ := shelved?_of_lastBuild hsince hlast
        exact ⟨g, since, t, job, hsince, hlast, rfl, buildsAlike_of_shelved hbefore hy⟩

/-- After any operations on an empty catalog: the next one is confined to its name and to its success, a
file is loaded as the graph that it holds is inserted, and the catalog is as its past has it. -/
theorem dated_after_calls (calls : List Call) :
    (∀ x : Call, x.Confined (after {} calls)) ∧
      (∀ parse folder name path, LoadsAsInserts (after {} calls) parse folder name path) ∧
      Dated (history {} calls) (after {} calls) :=
  ⟨fun x => x.confined _, fun parse folder name path => loadsAsInserts _ parse folder name path,
    dated_after calls⟩

end FrameGraph.Catalog
