import CodeIndex.Proofs.Action
import CodeIndex.Proofs.Record.Batch
import CodeIndex.Store.Basic

/-!
# What the steps of a store come to

A step on a store is run on a store, step by step: `Action.on` gives its result and the store after it.
Taking the lock and reading a batch only write the log.
-/

namespace CodeIndex.Store

variable {α β : Type}

/-- What a step comes to on a store, and the store after it. -/
def Action.on (act : Action α) (s : Store) : Except Trouble α × Store :=
  act.run.run s

/-! ## Running a step -/

theorem on_bind (act : Action α) (f : α → Action β) (s : Store) :
    (act >>= f).on s =
      match act.on s with
      | (.ok a, s) => (f a).on s
      | (.error t, s) => (.error t, s) := by
  unfold Action.on
  rw [run_bind]
  rcases act.run.run s with ⟨_ | _, _⟩ <;> rfl

/-- A step that ends early does so in its first part or in what follows it. -/
theorem on_bind_error {act : Action α} {f : α → Action β} {s s' : Store} {e : Trouble}
    (h : (act >>= f).on s = (.error e, s')) :
    act.on s = (.error e, s') ∨ ∃ a s₁, act.on s = (.ok a, s₁) ∧ (f a).on s₁ = (.error e, s') := by
  rw [on_bind] at h
  rcases hon : act.on s with ⟨r, s₁⟩
  rw [hon] at h
  cases r with
  | error t =>
    obtain ⟨he, rfl⟩ := Prod.mk.inj h
    injection he with he
    exact .inl (by rw [he])
  | ok a => exact .inr ⟨a, s₁, rfl, h⟩

theorem on_bind_ok {act : Action α} {f : α → Action β} {s s' : Store} {b : β}
    (h : (act >>= f).on s = (.ok b, s')) :
    ∃ a s₁, act.on s = (.ok a, s₁) ∧ (f a).on s₁ = (.ok b, s') := by
  rw [on_bind] at h
  rcases hon : act.on s with ⟨r, s₁⟩
  rw [hon] at h
  cases r with
  | error t => cases (Prod.mk.inj h).1
  | ok a => exact ⟨a, s₁, rfl, h⟩

theorem on_tryCatch (act : Action α) (h : Trouble → Action α) (s : Store) :
    (tryCatch act h : Action α).on s =
      match act.on s with
      | (.ok a, s) => (.ok a, s)
      | (.error t, s) => (h t).on s := by
  unfold Action.on
  rw [run_tryCatch]
  rcases act.run.run s with ⟨_ | _, _⟩ <;> rfl

@[simp] theorem on_pure (a : α) (s : Store) : (pure a : Action α).on s = (.ok a, s) := rfl

@[simp] theorem on_get (s : Store) : (get : Action Store).on s = (.ok s, s) := rfl

@[simp] theorem on_set (s s' : Store) : (set s' : Action PUnit).on s = (.ok ⟨⟩, s') := rfl

@[simp] theorem on_modify (f : Store → Store) (s : Store) :
    (modify f : Action PUnit).on s = (.ok ⟨⟩, f s) := rfl

@[simp] theorem on_fail (f : Failure) (s : Store) :
    (fail f : Action α).on s = (.error (.failure f), s) := rfl

@[simp] theorem on_throw (t : Trouble) (s : Store) :
    (throw t : Action α).on s = (.error t, s) := rfl

@[simp] theorem on_mishap (m : Mishap) (s : Store) :
    (mishap m : Action α).on s = (.error (.mishap m), s) := rfl

/-- The store with further events in its log, the last first. -/
def logging (events : List Log.Event) (s : Store) : Store :=
  { s with logged := events ++ s.logged }

@[simp] theorem disk_logging (events : List Log.Event) (s : Store) :
    (s.logging events).disk = s.disk := rfl

@[simp] theorem on_log (e : Log.Event) (s : Store) :
    (log e).on s = (.ok ⟨⟩, s.logging [e]) := rfl

theorem on_logEach {γ : Type} (f : γ → Log.Event) (items : List γ) (s : Store) :
    (forIn items PUnit.unit (fun x _ => do
      log (f x)
      pure (ForInStep.yield PUnit.unit)) : Action PUnit).on s =
      (.ok ⟨⟩, s.logging (items.map f).reverse) := by
  induction items generalizing s with
  | nil => rfl
  | cons x rest ih =>
    simp only [List.forIn_cons, on_bind, on_log, on_pure, ih, logging, List.map_cons,
      List.reverse_cons, List.append_assoc, List.singleton_append]

theorem length_of_on_mapM {f : α → Action β} {items : List α} {s s' : Store} {results : List β}
    (h : (items.mapM f).on s = (.ok results, s')) : results.length = items.length := by
  induction items generalizing s results with
  | nil => cases h; rfl
  | cons x rest ih =>
    rw [List.mapM_cons] at h
    obtain ⟨y, s₁, -, h⟩ := on_bind_ok h
    obtain ⟨ys, s₂, hrest, h⟩ := on_bind_ok h
    cases h
    rw [List.length_cons, List.length_cons, ih hrest]

/-! ## Reading a batch and taking the lock -/

/-- The drafts that a batch of records stands for, one per identity. -/
def draftsIn (records : List Record) : List Draft :=
  mergeClauses (Batch.ofRecords records).drafts

/-- Those of them that have no text that cannot be encoded. -/
def entitiesIn (records : List Record) : List Entity :=
  (draftsIn records).filterMap Entity.whole?

theorem filterMap_whole?_draft (entities : List Entity) :
    (entities.map Entity.draft).filterMap Entity.whole? = entities := by
  rw [List.filterMap_map]
  exact (List.filterMap_congr fun e _ => Entity.whole?_draft e).trans List.filterMap_some

theorem entities_entities (entities : List Entity) :
    (Batch.ofRecords (entities.map .entity)).entities = entities := by
  rw [Batch.entities, Batch.drafts_entities, filterMap_whole?_draft]

theorem draftsIn_of_drafts {records : List Record} {entities : List Entity}
    (h : (Batch.ofRecords records).drafts = entities.map Entity.draft) :
    draftsIn records = (mergeClauses entities).map Entity.draft := by
  rw [draftsIn, h, draft_mergeClauses]

theorem entitiesIn_of_drafts {records : List Record} {entities : List Entity}
    (h : (Batch.ofRecords records).drafts = entities.map Entity.draft) :
    entitiesIn records = mergeClauses entities := by
  rw [entitiesIn, draftsIn_of_drafts h, filterMap_whole?_draft]

theorem draftsIn_drafts (drafts : List Draft) : draftsIn (drafts.map .draft) = mergeClauses drafts := by
  rw [draftsIn, Batch.drafts_drafts]

theorem draftsIn_entities (entities : List Entity) :
    draftsIn (entities.map .entity) = (mergeClauses entities).map Entity.draft :=
  draftsIn_of_drafts (Batch.drafts_entities entities)

theorem entitiesIn_entities (entities : List Entity) :
    entitiesIn (entities.map .entity) = mergeClauses entities :=
  entitiesIn_of_drafts (Batch.drafts_entities entities)

/-- No two drafts of a batch have one identity, and so no two of its entities. -/
theorem nodup_map_id_entitiesIn (records : List Record) :
    ((entitiesIn records).map Entity.id).Nodup := by
  have hdrafts : ((draftsIn records).map Entity.id).Nodup := nodup_map_id_mergeClauses _
  have hids : ((entitiesIn records).map Entity.id).map .whole =
      ((draftsIn records).filter fun d => (Entity.whole? d).isSome).map Entity.id := by
    unfold entitiesIn
    induction draftsIn records with
    | nil => rfl
    | cons d rest ih =>
      cases hd : Entity.whole? d with
      | none => rw [List.filterMap_cons_none hd, ih, List.filter_cons_of_neg (by rw [hd]; exact nofun)]
      | some e =>
        rw [List.filterMap_cons_some hd, List.map_cons, List.map_cons, ih,
          List.filter_cons_of_pos (by rw [hd]; rfl), List.map_cons, Entity.whole?_eq_some_iff.mp hd]
        rfl
  refine List.Nodup.of_map Writing.whole ?_
  rw [hids]
  exact hdrafts.sublist (List.filter_sublist.map _)

/-- What reading a batch logs, the last first. -/
def batchLog (records : List Record) : List Log.Event :=
  ((Batch.ofRecords records).malformed.map malformedEvent).reverse

theorem on_draftsOf (records : List Record) (s : Store) :
    (draftsOf records).on s =
      (match (Batch.ofRecords records).stopped with
        | some fault => .error (.mishap (refusal fault))
        | none => .ok (draftsIn records),
       s.logging (batchLog records)) := by
  unfold draftsOf
  simp only [on_bind, on_logEach]
  cases (Batch.ofRecords records).stopped <;> rfl

theorem on_acquire (s : Store) :
    acquire.on s =
      (match (Lock.acquire s.settings fun _ => s.attempt).2 with
        | .ok _ => .ok ()
        | .error m => .error (.mishap m),
       s.logging (Lock.notes (Lock.acquire s.settings fun _ => s.attempt).1).reverse) := by
  unfold acquire
  simp only [on_bind, on_get]
  rcases Lock.acquire s.settings fun _ => s.attempt with ⟨steps, result⟩
  have hlog := on_logEach (fun e => e) (Lock.notes steps) s
  simp only [List.map_id'] at hlog
  rw [hlog]
  cases result <;> rfl

end CodeIndex.Store
