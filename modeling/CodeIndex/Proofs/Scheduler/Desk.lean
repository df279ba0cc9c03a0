import CodeIndex.Proofs.Record.Batch
import CodeIndex.Proofs.Scheduler.Reports

/-!
# A desk

The smallest world that does what the scheduler relies on: a store, and the entities of all files in one
list.  The extractor gives back what the list had when it was asked.
-/

namespace CodeIndex.Scheduler

open Store (Files Reads)

def Scan.covers (path : String) : Scan → Bool
  | .all => true
  | .paths keys => keys.contains path

/-- A world with a store and the entities of all files, as they are and as they were when the extractor
was asked last. -/
structure Desk where
  store : Store
  files : List Entity
  asked : List Entity := []

namespace Desk

def root : Path := Path.ofString "/p"

def has (path : Path) (w : Desk) : Bool :=
  w.files.any fun e => root.under (Path.ofString e.path) == path

def backend : Backend Desk where
  log _ w := w
  isFile := has
  has := has
  ask _ w := { w with asked := w.files }
  isOpen _ := false
  answer scan w := (.ok ((w.asked.filter (scan.covers ·.path)).map .entity), w)
  perform work w :=
    let (result, store) := (Store.change (.ofWork work)).on w.store
    (result, { w with store })

def view : View Desk where
  tables w := w.store.disk.tables?
  files w := Files.ofEntities w.files
  asked w := Files.ofEntities w.asked

theorem reads_covered (entities : List Entity) (scan : Scan) :
    Reads ((entities.filter (scan.covers ·.path)).map .entity) (Files.ofEntities entities)
      scan.scope where
  whole := by rw [Batch.drafts_entities, Store.entities_entities]
  found path hp := by
    have hcovers : scan.covers path = true := by
      cases scan with
      | all => rfl
      | paths keys => exact List.contains_iff_mem.mpr hp
    rw [Store.entities_entities, List.filter_filter, Files.ofEntities]
    apply List.filter_congr
    intro e _
    by_cases he : e.path = path
    · simp [he, hcovers]
    · simp [he]
  within e he := by
    rw [Store.entities_entities, List.mem_filter] at he
    cases scan with
    | all => trivial
    | paths keys => exact List.contains_iff_mem.mp he.2

theorem isFaithful : backend.IsFaithful view where
  log _ _ := ⟨rfl, rfl, rfl⟩
  has_log _ _ _ := rfl
  ask _ _ := ⟨rfl, rfl, rfl⟩
  answer scan w := ⟨_, _, rfl, reads_covered w.asked scan, rfl, rfl, rfl⟩
  perform work w := ⟨w.store, ((Store.change (.ofWork work)).on w.store).2, rfl, rfl, rfl, rfl, rfl⟩

def edit (files : List Entity) : Event Desk :=
  .outside ({ · with files })

def built (files : List Entity) : List Store.Call :=
  [{ asked := .rebuild (files.map .entity) }]

def machine (files : List Entity) : Machine Desk :=
  { world := { store := Store.run { path := "index.db" } (built files), files }, root }

def start (files : List Entity) : Scene Desk :=
  { machine := (machine files).start backend }

theorem isFresh_machine (files : List Entity) : (machine files).IsFresh :=
  ⟨rfl, rfl, rfl, rfl, rfl⟩

theorem tables_machine (files : List Entity) :
    view.tables (machine files).world =
      (Store.run { path := "index.db" } (built files)).disk.tables? := rfl

theorem isCourse {files : List Entity} {events : List (Event Desk)}
    (hevents : ∀ e ∈ events, e.IsTame view)
    (hjobs : (start files).Always backend (fun s => ∀ job ∈ s.running,
      (backend.perform job.work s.machine.world).1.isOk = true) events) :
    (start files).IsCourse backend view events :=
  .of_always hevents hjobs

theorem isLaidOut {files : List Entity} {events : List (Event Desk)}
    (h : (start files).Always backend (fun s => PlacedById s.machine.world.files) events) :
    (start files).Always backend (fun s => (view.files s.machine.world).IsLaidOut) events :=
  h.imp fun _ hs => Files.isLaidOut_ofEntities hs

end Desk

end CodeIndex.Scheduler
