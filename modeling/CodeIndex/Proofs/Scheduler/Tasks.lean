import CodeIndex.Scheduler.Clock
import Mathlib.Data.List.Nodup

/-!
# Where the tasks of a machine are

`At` says that a task waits at a stage.  Each primitive of the machine is described by what it does to
it: waking and cancelling leave every task where it is, suspending moves one task, finishing removes one,
and spawning adds one.  What a turn does to more than its own task is only to add tasks that wait for a
quiet time or begin a cycle: this is `Extends`, and `Moves` for a turn as a whole.
-/

namespace CodeIndex.Scheduler.Machine

variable {σ : Type} {b : Backend σ} {m m' m'' : Machine σ}

/-- A live task waits at a stage, or for its turn to go on from there. -/
def At (m : Machine σ) (id : TaskId) (stage : Stage) : Prop :=
  ∃ t ∈ m.tasks, t.id = id ∧ t.stage = stage

theorem At.of_task? {turn : TaskId} {t : Task} (h : m.task? turn = some t) : m.At t.id t.stage :=
  ⟨t, List.mem_of_find?_eq_some h, rfl, rfl⟩

def ids (m : Machine σ) : List TaskId :=
  m.tasks.map Task.id

theorem At.mem_ids {id : TaskId} {stage : Stage} (h : m.At id stage) : id ∈ m.ids := by
  obtain ⟨t, ht, rfl, -⟩ := h
  exact List.mem_map_of_mem ht

theorem task?_id {i : TaskId} {t : Task} (h : m.task? i = some t) : t.id = i := by
  simpa using List.find?_some h

theorem exists_task? {i : TaskId} (h : i ∈ m.ids) : ∃ t, m.task? i = some t := by
  obtain ⟨t, ht, rfl⟩ := List.mem_map.mp h
  exact Option.isSome_iff_exists.mp (List.find?_isSome.mpr ⟨t, ht, beq_self_eq_true _⟩)

/-- Live tasks have distinct numbers, and none has a number that is still to be given. -/
structure Numbered (m : Machine σ) : Prop where
  nodup : m.ids.Nodup
  lt : ∀ id ∈ m.ids, id < m.created

theorem Numbered.eq_of_id (h : m.Numbered) {t u : Task} (ht : t ∈ m.tasks) (hu : u ∈ m.tasks)
    (he : t.id = u.id) : t = u :=
  List.inj_on_of_nodup_map h.nodup ht hu he

theorem Numbered.task?_of_mem (h : m.Numbered) {t : Task} (ht : t ∈ m.tasks) :
    m.task? t.id = some t := by
  obtain ⟨u, hu⟩ := exists_task? (List.mem_map_of_mem ht)
  rw [hu, h.eq_of_id (List.mem_of_find?_eq_some hu) ht (task?_id hu)]

/-- A task is at one stage. -/
theorem Numbered.stage_unique (h : m.Numbered) {id : TaskId} {stage stage' : Stage}
    (hs : m.At id stage) (hs' : m.At id stage') : stage = stage' := by
  obtain ⟨t, ht, hi, rfl⟩ := hs
  obtain ⟨t', ht', hi', rfl⟩ := hs'
  rw [h.eq_of_id ht ht' (hi.trans hi'.symm)]

theorem Numbered.at_lt (h : m.Numbered) {id : TaskId} {stage : Stage} (hs : m.At id stage) :
    id < m.created :=
  h.lt id hs.mem_ids

theorem Numbered.congr (h : m.Numbered) (ht : m'.tasks = m.tasks) (hc : m'.created = m.created) :
    m'.Numbered := by
  have hids : m'.ids = m.ids := congrArg (List.map Task.id) ht
  exact ⟨hids ▸ h.nodup, fun id hid => hc ▸ h.lt id (hids ▸ hid)⟩

/-! ## What the primitives do -/

section Primitives

variable {id i : TaskId} {stage st : Stage} {wait : Wait} {time : Nat} {work : Work}
  {outcome : Outcome} {result : Option (Except Trouble Nat)}

@[simp] theorem at_spawn :
    (m.spawn stage).At i st ↔ m.At i st ∨ i = m.created ∧ st = stage := by
  unfold At spawn
  simp only [List.mem_append, List.mem_singleton]
  constructor
  · rintro ⟨t, ht | rfl, rfl, rfl⟩
    · exact .inl ⟨t, ht, rfl, rfl⟩
    · exact .inr ⟨rfl, rfl⟩
  · rintro (⟨t, ht, rfl, rfl⟩ | ⟨rfl, rfl⟩)
    · exact ⟨t, .inl ht, rfl, rfl⟩
    · exact ⟨_, .inr rfl, rfl, rfl⟩

@[simp] theorem at_suspend :
    (m.suspend id stage wait).At i st ↔ i ≠ id ∧ m.At i st ∨ i = id ∧ st = stage := by
  unfold At suspend
  simp only [List.mem_append, List.mem_singleton, List.mem_filter, bne_iff_ne]
  constructor
  · rintro ⟨t, ⟨ht, hne⟩ | rfl, rfl, rfl⟩
    · exact .inl ⟨hne, t, ht, rfl, rfl⟩
    · exact .inr ⟨rfl, rfl⟩
  · rintro (⟨hne, t, ht, rfl, rfl⟩ | ⟨rfl, rfl⟩)
    · exact ⟨t, .inl ⟨ht, hne⟩, rfl, rfl⟩
    · exact ⟨_, .inr rfl, rfl, rfl⟩

/-- Changing what tasks wait for moves none. -/
theorem at_of_map {f : Task → Task} (hid : ∀ t, (f t).id = t.id) (hst : ∀ t, (f t).stage = t.stage)
    {tasks : List Task} :
    (∃ t ∈ tasks.map f, t.id = i ∧ t.stage = st) ↔ ∃ t ∈ tasks, t.id = i ∧ t.stage = st := by
  constructor
  · rintro ⟨t, ht, rfl, rfl⟩
    obtain ⟨u, hu, rfl⟩ := List.mem_map.mp ht
    exact ⟨u, hu, (hid u).symm, (hst u).symm⟩
  · rintro ⟨t, ht, rfl, rfl⟩
    exact ⟨f t, List.mem_map_of_mem ht, hid t, hst t⟩

@[simp] theorem at_wake : (m.wake id result).At i st ↔ m.At i st :=
  at_of_map (fun t => by split <;> rfl) (fun t => by split <;> rfl)

theorem at_foldl_wake (tasks : List Task) :
    (tasks.foldl (fun m t => m.wake t.id none) m).At i st ↔ m.At i st := by
  induction tasks generalizing m with
  | nil => exact Iff.rfl
  | cons t rest ih => rw [List.foldl_cons, ih, at_wake]

@[simp] theorem at_finish : (m.finish id outcome).At i st ↔ i ≠ id ∧ m.At i st := by
  have htold : ∀ t : Task, (t.told id).id = t.id ∧ (t.told id).stage = t.stage := by
    intro t
    unfold Task.told
    split <;> exact ⟨rfl, rfl⟩
  unfold finish
  rw [at_foldl_wake, At, at_of_map (fun t => (htold t).1) (fun t => (htold t).2)]
  simp only [List.mem_filter, bne_iff_ne]
  constructor
  · rintro ⟨t, ⟨ht, hne⟩, rfl, rfl⟩
    exact ⟨hne, t, ht, rfl, rfl⟩
  · rintro ⟨hne, t, ht, rfl, rfl⟩
    exact ⟨t, ⟨ht, hne⟩, rfl, rfl⟩

@[simp] theorem at_cancel : (m.cancel id).At i st ↔ m.At i st := by
  have hmark : ∀ t : Task,
      (if t.id == id then { t with isCancelled := true } else t : Task).id = t.id ∧
        (if t.id == id then { t with isCancelled := true } else t : Task).stage = t.stage := by
    intro t
    split <;> exact ⟨rfl, rfl⟩
  unfold cancel
  split
  · exact Iff.rfl
  · dsimp only
    split
    · exact at_of_map (fun t => (hmark t).1) (fun t => (hmark t).2)
    · rw [at_wake]
      exact at_of_map (fun t => (hmark t).1) (fun t => (hmark t).2)

/-! ## Numbers -/

theorem Numbered.spawn (h : m.Numbered) : (m.spawn stage).Numbered := by
  have hids : (m.spawn stage).ids = m.ids ++ [m.created] := by
    simp [ids, Machine.spawn]
  constructor
  · rw [hids, List.nodup_append']
    refine ⟨h.nodup, List.nodup_singleton _, ?_⟩
    intro i hi hc
    rw [List.mem_singleton] at hc
    exact Nat.lt_irrefl _ (hc ▸ h.lt i hi)
  · intro i hi
    rw [hids, List.mem_append, List.mem_singleton] at hi
    change i < m.created + 1
    rcases hi with hi | rfl
    · exact Nat.lt_succ_of_lt (h.lt i hi)
    · exact Nat.lt_succ_self _

theorem ids_suspend : (m.suspend id stage wait).ids = m.ids.filter (· != id) ++ [id] := by
  rw [ids, ids, List.filter_map, Machine.suspend, List.map_append]
  rfl

theorem Numbered.suspend (h : m.Numbered) (hid : id < m.created) :
    (m.suspend id stage wait).Numbered := by
  constructor
  · rw [ids_suspend, List.nodup_append']
    refine ⟨h.nodup.filter _, List.nodup_singleton _, ?_⟩
    intro i hi hc
    rw [List.mem_singleton] at hc
    simp [hc] at hi
  · intro i hi
    rw [ids_suspend, List.mem_append, List.mem_filter, List.mem_singleton] at hi
    rcases hi with ⟨hi, -⟩ | rfl
    · exact h.lt i hi
    · exact hid

theorem Numbered.of_ids (h : m.Numbered) (hids : m'.ids.Sublist m.ids)
    (hcreated : m'.created = m.created) : m'.Numbered where
  nodup := h.nodup.sublist hids
  lt i hi := hcreated ▸ h.lt i (hids.subset hi)

theorem ids_of_map {f : Task → Task} (hid : ∀ t, (f t).id = t.id) (tasks : List Task) :
    (tasks.map f).map Task.id = tasks.map Task.id := by
  rw [List.map_map]
  exact List.map_congr_left fun t _ => hid t

@[simp] theorem ids_wake : (m.wake id result).ids = m.ids :=
  ids_of_map (fun t => by split <;> rfl) m.tasks

theorem foldl_wake (tasks : List Task) :
    (tasks.foldl (fun m t => m.wake t.id none) m).ids = m.ids ∧
      (tasks.foldl (fun m t => m.wake t.id none) m).created = m.created := by
  induction tasks generalizing m with
  | nil => exact ⟨rfl, rfl⟩
  | cons t rest ih =>
    rw [List.foldl_cons]
    exact ⟨ih.1.trans ids_wake, ih.2⟩

theorem Numbered.wake (h : m.Numbered) : (m.wake id result).Numbered :=
  h.of_ids (by rw [ids_wake]) rfl

theorem Numbered.finish (h : m.Numbered) : (m.finish id outcome).Numbered := by
  unfold Machine.finish
  refine h.of_ids ?_ (foldl_wake _).2
  rw [(foldl_wake _).1, ids, ids_of_map fun t => ?_]
  · exact (List.filter_sublist).map _
  · unfold Task.told
    split <;> rfl

theorem Numbered.cancel (h : m.Numbered) : (m.cancel id).Numbered := by
  have hmark : ∀ t : Task,
      (if t.id == id then { t with isCancelled := true } else t : Task).id = t.id := by
    intro t
    split <;> rfl
  unfold Machine.cancel
  split
  · exact h
  · dsimp only
    have hmarked : ({ m with tasks := m.tasks.map fun t =>
        if t.id == id then { t with isCancelled := true } else t } : Machine σ).Numbered :=
      h.of_ids (by rw [ids, ids_of_map hmark, ids]) rfl
    split
    · exact hmarked
    · exact hmarked.wake

end Primitives

end CodeIndex.Scheduler.Machine
