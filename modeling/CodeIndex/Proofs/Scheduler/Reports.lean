import CodeIndex.Proofs.Scheduler.Holder
import CodeIndex.Proofs.Store.Files

/-!
# Files, reports and what the scheduler is promised

What the scheduler is to achieve is about files: those of the world as it is, and what the store holds
for them.  The extractor is taken to find what the files had when it was asked, and the store to do what
the store does.  A path counts as reported as long as the last event that the scheduler was told about it
came after the last change of its file, and was not the deletion of a file that has something.
-/

namespace CodeIndex.Scheduler

open Store (Tables Files Reads Lockstep)

/-- What is to be seen of a world: the tables of its store, what its files have, and what they had when
the extractor was asked last. -/
structure View (σ : Type) where
  tables : σ → Option Tables
  files : σ → Files
  asked : σ → Files

def Scan.scope : Scan → Set String
  | .all => Set.univ
  | .paths keys => {path | path ∈ keys}

/-- The tables after a work of the store. -/
def applied (t : Tables) (work : Work) : Tables :=
  Store.applied t (.ofWork work)

variable {σ : Type}

/-- The world does what the scheduler relies on: logging touches nothing, the extractor finds what the
files in its scope had when it was asked, and the store is changed as a store is. -/
structure Backend.IsFaithful (b : Backend σ) (v : View σ) : Prop where
  log : ∀ e w, v.tables (b.log e w) = v.tables w ∧ v.files (b.log e w) = v.files w ∧
    v.asked (b.log e w) = v.asked w
  has_log : ∀ e p w, b.has p (b.log e w) = b.has p w
  ask : ∀ scan w, v.tables (b.ask scan w) = v.tables w ∧ v.files (b.ask scan w) = v.files w ∧
    v.asked (b.ask scan w) = v.files w
  answer : ∀ scan w, ∃ records w', b.answer scan w = (.ok records, w') ∧
    Reads records (v.asked w) scan.scope ∧ v.tables w' = v.tables w ∧ v.files w' = v.files w ∧
    v.asked w' = v.asked w
  perform : ∀ work w, ∃ s s' : Store, s.disk.tables? = v.tables w ∧
    (Store.change (.ofWork work)).on s = ((b.perform work w).1, s') ∧
    s'.disk.tables? = v.tables (b.perform work w).2 ∧ v.files (b.perform work w).2 = v.files w ∧
    v.asked (b.perform work w).2 = v.asked w

/-- Whether a drain still holds a deletion of a path. -/
def Stage.holdsDelete (path : String) : Stage → Bool
  | .drained _ rest _ => rest.contains (path, .delete)
  | _ => false

/-- Whether records of a path are on their way to the store. -/
def Stage.stores (path : String) : Stage → Bool
  | .cycleMerged batch => batch.contains path
  | .rebuildStored => true
  | _ => false

/-- The paths that a drain is still to purge, although their files have something. -/
def Machine.threatened (v : View σ) (m : Machine σ) : Set String :=
  {path | v.files m.world path ≠ [] ∧ ∃ t ∈ m.tasks, t.stage.holdsDelete path = true}

/-- The threatened paths whose records are on their way to the store since a turn: they are purged
afterwards. -/
def Machine.overtaken (v : View σ) (m m' : Machine σ) : Set String :=
  {path | path ∈ m'.threatened v ∧ ∃ t ∈ m'.tasks, t.stage.stores path = true ∧
    ∀ u ∈ m.tasks, u.id = t.id → u.stage.stores path = false}

/-! ## Runs -/

/-- An event that changes files at most by itself, whatever the scene. -/
def Event.IsTame (v : View σ) : Event σ → Prop
  | .stop => False
  | .outside f => ∀ w, v.tables (f w) = v.tables w ∧ v.asked (f w) = v.asked w
  | _ => True

namespace Scene

/-- An event as it may be while the scheduler is not told to stop and its store does not fail: files may
change by themselves, the store and what the extractor has seen may not. -/
def IsFair (b : Backend σ) (v : View σ) (s : Scene σ) : Event σ → Prop
  | .stop => False
  | .outside f => v.tables (f s.machine.world) = v.tables s.machine.world ∧
    v.asked (f s.machine.world) = v.asked s.machine.world
  | .done => ∀ job, s.running = some job → (b.perform job.work s.machine.world).1.isOk = true
  | _ => True

/-- Events all of which are fair when they happen. -/
def IsCourse (b : Backend σ) (v : View σ) (s : Scene σ) : List (Event σ) → Prop
  | [] => True
  | e :: rest => s.IsFair b v e ∧ (s.step b e).IsCourse b v rest

/-- Something holds now and after each event. -/
def Always (b : Backend σ) (P : Scene σ → Prop) (s : Scene σ) : List (Event σ) → Prop
  | [] => P s
  | e :: rest => P s ∧ (s.step b e).Always b P rest

theorem Always.imp {b : Backend σ} {P Q : Scene σ → Prop} (h : ∀ s, P s → Q s) {s : Scene σ}
    {events : List (Event σ)} (hs : s.Always b P events) : s.Always b Q events := by
  induction events generalizing s with
  | nil => exact h s hs
  | cons e rest ih => exact ⟨h s hs.1, ih hs.2⟩

/-- Tame events are a course if every job that is begun succeeds. -/
theorem IsCourse.of_always {b : Backend σ} {v : View σ} {s : Scene σ} {events : List (Event σ)}
    (hevents : ∀ e ∈ events, e.IsTame v)
    (hjobs : s.Always b (fun s => ∀ job ∈ s.running,
      (b.perform job.work s.machine.world).1.isOk = true) events) :
    s.IsCourse b v events := by
  induction events generalizing s with
  | nil => trivial
  | cons e rest ih =>
    rw [List.forall_mem_cons] at hevents
    refine ⟨?_, ih hevents.2 hjobs.2⟩
    cases e with
    | stop => exact hevents.1
    | outside f => exact hevents.1 s.machine.world
    | done => exact fun job hjob => hjobs.1 job hjob
    | _ => trivial

instance decidableAlways {b : Backend σ} {P : Scene σ → Prop} [DecidablePred P] :
    ∀ (s : Scene σ) (events : List (Event σ)), Decidable (s.Always b P events)
  | s, [] => inferInstanceAs (Decidable (P s))
  | s, e :: rest =>
    have : Decidable ((s.step b e).Always b P rest) := decidableAlways (s.step b e) rest
    inferInstanceAs (Decidable (P s ∧ (s.step b e).Always b P rest))

/-- The reported paths after an event of a path. -/
def heard (files : Files) (reported : Set String) : String × Operation → Set String
  | (path, .change) => {p | p = path ∨ p ∈ reported}
  | (path, .delete) => {p | p = path ∧ files p = [] ∨ p ≠ path ∧ p ∈ reported}

/-- The reported paths after an event that leads to another scene: those whose file has not changed by
itself, and what the scheduler is told. -/
def reportedAfter (b : Backend σ) (v : View σ) (s s' : Scene σ) (reported : Set String)
    (e : Event σ) : Set String :=
  (s.given b e).foldl (heard (v.files s.machine.world))
    {p | p ∈ reported ∧ v.files s'.machine.world p = v.files s.machine.world p}

/-- The paths that are reported after a run. -/
def reported (b : Backend σ) (v : View σ) (s : Scene σ) (before : Set String) :
    List (Event σ) → Set String
  | [] => before
  | e :: rest => (s.step b e).reported b v (s.reportedAfter b v (s.step b e) before e) rest

/-- The paths that were overtaken by a deletion since the scheduler was told about them last. -/
def overtakenAfter (b : Backend σ) (v : View σ) (s s' : Scene σ) (overtaken : Set String)
    (e : Event σ) : Set String :=
  {p | p ∈ s.machine.overtaken v s'.machine ∨ p ∈ overtaken ∧ p ∉ (s.given b e).map Prod.fst}

/-- The paths that are overtaken after a run. -/
def overtaken (b : Backend σ) (v : View σ) (s : Scene σ) (before : Set String) :
    List (Event σ) → Set String
  | [] => before
  | e :: rest => (s.step b e).overtaken b v (s.overtakenAfter b v (s.step b e) before e) rest

section Decide

variable {b : Backend σ} {v : View σ} {files : Files} {reported : Set String}

instance decidableHeard [DecidablePred (· ∈ reported)] :
    ∀ e : String × Operation, DecidablePred (· ∈ heard files reported e)
  | (path, .change) => fun p => inferInstanceAs (Decidable (p = path ∨ p ∈ reported))
  | (path, .delete) => fun p =>
    inferInstanceAs (Decidable (p = path ∧ files p = [] ∨ p ≠ path ∧ p ∈ reported))

instance decidableFoldlHeard : ∀ (given : List (String × Operation)) (reported : Set String)
    [DecidablePred (· ∈ reported)], DecidablePred (· ∈ given.foldl (heard files) reported)
  | [], _, h => h
  | e :: rest, reported, _ => decidableFoldlHeard rest (heard files reported e)

instance decidableThreatened (m : Machine σ) : DecidablePred (· ∈ m.threatened v) := fun path =>
  inferInstanceAs (Decidable (v.files m.world path ≠ [] ∧
    ∃ t ∈ m.tasks, t.stage.holdsDelete path = true))

instance decidableOvertaken (m m' : Machine σ) : DecidablePred (· ∈ m.overtaken v m') := fun path =>
  inferInstanceAs (Decidable (path ∈ m'.threatened v ∧ ∃ t ∈ m'.tasks,
    t.stage.stores path = true ∧ ∀ u ∈ m.tasks, u.id = t.id → u.stage.stores path = false))

instance decidableReportedAfter [DecidablePred (· ∈ reported)] (s s' : Scene σ) (e : Event σ) :
    DecidablePred (· ∈ s.reportedAfter b v s' reported e) :=
  have : DecidablePred (· ∈ {p | p ∈ reported ∧
      v.files s'.machine.world p = v.files s.machine.world p}) := fun p =>
    inferInstanceAs (Decidable (p ∈ reported ∧
      v.files s'.machine.world p = v.files s.machine.world p))
  decidableFoldlHeard (s.given b e) _

instance decidableReported : ∀ (s : Scene σ) (before : Set String) [DecidablePred (· ∈ before)]
    (events : List (Event σ)), DecidablePred (· ∈ s.reported b v before events)
  | _, _, h, [] => h
  | s, before, _, e :: rest =>
    decidableReported (s.step b e) (s.reportedAfter b v (s.step b e) before e) rest

instance decidableOvertakenAfter {overtaken : Set String} [DecidablePred (· ∈ overtaken)]
    (s s' : Scene σ) (e : Event σ) :
    DecidablePred (· ∈ s.overtakenAfter b v s' overtaken e) := fun p =>
  inferInstanceAs (Decidable (p ∈ s.machine.overtaken v s'.machine ∨
    p ∈ overtaken ∧ ¬p ∈ (s.given b e).map Prod.fst))

instance decidableOvertakenRun : ∀ (s : Scene σ) (before : Set String)
    [DecidablePred (· ∈ before)] (events : List (Event σ)),
    DecidablePred (· ∈ s.overtaken b v before events)
  | _, _, h, [] => h
  | s, before, _, e :: rest =>
    decidableOvertakenRun (s.step b e) (s.overtakenAfter b v (s.step b e) before e) rest

end Decide

/-- The works that the store still has to do, the oldest first. -/
def works (s : Scene σ) : List Work :=
  (s.running.toList ++ s.machine.jobs).map Job.work

/-- The tables of the store as they are. -/
def tables (v : View σ) (s : Scene σ) : Tables :=
  (v.tables s.machine.world).getD {}

/-- The tables when all that was handed in is done. -/
def outlook (v : View σ) (s : Scene σ) : Tables :=
  s.works.foldl applied (s.tables v)

/-- Nothing is left: no task and so no timer, no job, and no event of a path. -/
structure IsQuiet (s : Scene σ) : Prop where
  tasks : s.machine.tasks = []
  jobs : s.machine.jobs = []
  running : s.running = none
  pending : s.machine.scheduler.pending = []
  deferred : s.machine.scheduler.deferred = []

instance (s : Scene σ) : Decidable s.IsQuiet :=
  decidable_of_iff (s.machine.tasks.isEmpty = true ∧ s.machine.jobs.isEmpty = true ∧
      s.running.isNone = true ∧ s.machine.scheduler.pending = [] ∧ s.machine.scheduler.deferred = [])
    (by
      simp only [List.isEmpty_iff, Option.isNone_iff_eq_none]
      exact ⟨fun ⟨h₁, h₂, h₃, h₄, h₅⟩ => ⟨h₁, h₂, h₃, h₄, h₅⟩,
        fun ⟨h₁, h₂, h₃, h₄, h₅⟩ => ⟨h₁, h₂, h₃, h₄, h₅⟩⟩)

end Scene

/-! ## What a scan leaves in the store -/

/-- What was read in the scope of a scan is in the store when its change is done, and no other file that
was up to date is spoiled. -/
theorem stored_applied_work {records : List Record} {files : Files} {scan : Scan}
    (h : Reads records files scan.scope) (hf : files.IsLaidOut) {t : Tables} (ht : Lockstep t)
    {path : String} (hp : path ∈ scan.scope ∨ t.stored path = files.shown path) :
    (applied t (scan.work records)).stored path = files.shown path := by
  cases scan with
  | all => exact Store.stored_rebuild h hf path
  | paths keys =>
    have hmerge := Store.stored_merge h hf ht hp
    rwa [← Writing.wholes_map keys] at hmerge

end CodeIndex.Scheduler
