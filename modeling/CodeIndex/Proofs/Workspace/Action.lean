import CodeIndex.Proofs.FileTree.Entry
import CodeIndex.Proofs.Store.Change
import CodeIndex.Workspace.Basic

/-!
# What the steps of a workspace come to

A step on a workspace is run on a workspace: `Action.on` gives its result and the workspace after it.  A
step on the store reads the file at the store's path and writes it back.  Where that is the file of a store
that was built, what is written is found again, and a store whose disk did not change leaves all files as
they are.
-/

namespace CodeIndex.Workspace

variable {α β : Type}

/-- What a step comes to on a workspace, and the workspace after it. -/
def Action.on (act : Action α) (w : Workspace) : Except Trouble α × Workspace :=
  act.run.run w

theorem on_bind (act : Action α) (f : α → Action β) (w : Workspace) :
    (act >>= f).on w =
      match act.on w with
      | (.ok a, w) => (f a).on w
      | (.error t, w) => (.error t, w) := by
  unfold Action.on
  rw [run_bind]
  rcases act.run.run w with ⟨_ | _, _⟩ <;> rfl

theorem on_bind_ok {act : Action α} {f : α → Action β} {w w' : Workspace} {b : β}
    (h : (act >>= f).on w = (.ok b, w')) :
    ∃ a w₁, act.on w = (.ok a, w₁) ∧ (f a).on w₁ = (.ok b, w') := by
  rw [on_bind] at h
  rcases hon : act.on w with ⟨_ | a, w₁⟩
  · rw [hon] at h
    cases (Prod.mk.inj h).1
  · rw [hon] at h
    exact ⟨a, w₁, rfl, h⟩

theorem on_tryCatch (act : Action α) (h : Trouble → Action α) (w : Workspace) :
    (tryCatch act h : Action α).on w =
      match act.on w with
      | (.ok a, w) => (.ok a, w)
      | (.error t, w) => (h t).on w := by
  unfold Action.on
  rw [run_tryCatch]
  rcases act.run.run w with ⟨_ | _, _⟩ <;> rfl

@[simp] theorem on_pure (a : α) (w : Workspace) : (pure a : Action α).on w = (.ok a, w) := rfl

@[simp] theorem on_get (w : Workspace) : (get : Action Workspace).on w = (.ok w, w) := rfl

@[simp] theorem on_set (w w' : Workspace) : (set w' : Action PUnit).on w = (.ok ⟨⟩, w') := rfl

@[simp] theorem on_throw (t : Trouble) (w : Workspace) :
    (throw t : Action α).on w = (.error t, w) := rfl

theorem on_log (level : Log.Level) (name : String) (members : Value.Members) (w : Workspace) :
    (log level name members).on w =
      (.ok ⟨⟩, { w with logged := { level, name, members } :: w.logged }) := rfl

@[simp] theorem on_fail (f : Failure) (w : Workspace) :
    (fail f : Action α).on w = (.error (.failure f), w) := rfl

@[simp] theorem on_mishap (m : Mishap) (w : Workspace) :
    (mishap m : Action α).on w = (.error (.mishap m), w) := rfl

@[simp] theorem on_modify (f : Workspace → Workspace) (w : Workspace) :
    (modify f : Action PUnit).on w = (.ok ⟨⟩, f w) := rfl

/-! ## The store of a workspace -/

theorem on_onStore (act : Store.Action α) (w : Workspace) :
    (onStore act).on w = ((act.on w.store).1, w.withStore (act.on w.store).2) := by
  unfold onStore Store.Action.on
  simp only [on_bind, on_get]
  rcases act.run.run w.store with ⟨_ | _, s⟩ <;> rfl

/-- Bytes that no database engine has written as a whole hold no tables. -/
theorem tables?_ofBytes (b : Bytes) : (Store.Disk.ofBytes b).tables? = none := by
  unfold Store.Disk.ofBytes
  split
  · rfl
  · split <;> rfl

/-- Where the tables of a store are read there is a file with its database. -/
theorem find?_storePath {w : Workspace} {t : Store.Tables} (h : w.store.disk.tables? = some t) :
    ∃ x, w.tree.find? w.storePath = some (.file (.database (.ofTables t)) x) := by
  change (w.tree.storeAt w.storePath).tables? = some t at h
  unfold Node.storeAt at h
  split at h
  · cases h
  · rename_i d x hfind
    refine ⟨x, ?_⟩
    rw [hfind, ← Store.Database.eq_ofTables h]
  · rw [tables?_ofBytes] at h
    cases h
  · cases h
  · split at h
    · cases h
    · cases h
    · split at h <;> cases h

/-- What is written over a store that was built is found there. -/
theorem disk_withStore {w : Workspace} {t : Store.Tables} (h : w.store.disk.tables? = some t)
    {s : Store} {d : Store.Database} (hs : s.disk = .database d) :
    (w.withStore s).store.disk = .database d := by
  obtain ⟨x, hfind⟩ := find?_storePath h
  change ((w.tree.setStore w.storePath s.disk).storeAt w.storePath) = _
  rw [hs, Node.setStore, Node.storeAt, Node.find?_write hfind]

/-- A store whose disk did not change leaves all files as they are. -/
theorem withStore_of_disk {w : Workspace} {t : Store.Tables} (h : w.store.disk.tables? = some t)
    {s : Store} (hs : s.disk.tables? = some t) : w.withStore s = { w with logged := s.logged } := by
  obtain ⟨x, hfind⟩ := find?_storePath h
  obtain ⟨d, hd, hdt⟩ := Store.tables?_database hs
  unfold withStore
  rw [hd, Store.Database.eq_ofTables hdt, Node.setStore, Node.write_self hfind]

end CodeIndex.Workspace
