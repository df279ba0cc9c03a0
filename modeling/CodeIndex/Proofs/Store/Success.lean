import CodeIndex.Proofs.Store.Change

/-!
# When a change of the store succeeds

A rebuild succeeds where a file can stand, and a merge or a purge on a store that was built, if the write
lock can be had, the records can be read, and the tables can hold what they give.
-/

namespace CodeIndex.Store

/-- What stands at the store's path, if anything, is a file, and the lock is asked for at least once. -/
structure IsBuildable (s : Store) : Prop where
  tries : 0 ≤ s.settings.maxRetries
  place : s.disk = .absent ∨ s.disk = .garbage ∨ ∃ d, s.disk = .database d

theorem isWritable_of_database {s : Store} {d : Database} (ht : 0 ≤ s.settings.maxRetries)
    (hl : s.isLocked = false) (hd : s.disk = .database d) : s.IsWritable := by
  refine ⟨ht, ?_⟩
  unfold attempt
  rw [hd, hl]
  rfl

theorem on_rewrite_ok {s : Store} (ht : 0 ≤ s.settings.maxRetries) (hl : s.isLocked = false)
    (hd : s.disk = .absent ∨ ∃ d, s.disk = .database d) {entities : List Entity}
    (hfit : entities.all fits = true) :
    ∃ s', (rewrite (entities.map Entity.draft)).on s = (.ok ⟨⟩, s') ∧
      Wrote s (Tables.insert {} entities) s' := by
  -- either way there is a database when the lock is asked for
  obtain ⟨d, hc⟩ : ∃ d, create.on s = (.ok ⟨⟩, { s with disk := .database d }) := by
    unfold create
    simp only [on_bind, on_get]
    rcases hd with hd | ⟨d, hd⟩
    · rw [hd]
      exact ⟨{}, by simp only [if_pos ht, on_set]⟩
    · exact ⟨d, by rw [hd, on_pure, ← hd]⟩
  have hw := isWritable_of_database (s := { s with disk := .database d }) ht hl rfl
  unfold rewrite
  simp only [on_bind, hc]
  exact ⟨_, on_transaction hw (on_committed (on_refill hfit s d)), s.logged, rfl⟩

/-- A store that can be built is renewed with any entities that fit. -/
theorem on_renew_ok {s : Store} (h : s.IsBuildable) (hl : s.isLocked = false)
    {entities : List Entity} (hfit : entities.all fits = true) :
    ∃ s', (renew (entities.map Entity.draft)).on s = (.ok ⟨⟩, s') ∧
      Wrote s (Tables.insert {} entities) s' := by
  have hplace := h.place
  rw [or_left_comm] at hplace
  rcases hplace with hgarbage | hd
  · -- the first attempt finds no database; the file is discarded before the second
    have hc : create.on s = (.ok ⟨⟩, s) := by
      unfold create
      simp only [on_bind, on_get, hgarbage, on_pure]
    have ha : s.attempt = .failed .notADatabase := by
      unfold attempt
      rw [hgarbage]
    have hacquire : acquire.on s = (.error (.mishap .notADatabase), s) :=
      on_acquire_failed h.tries ha
    have hfirst : (rewrite (entities.map Entity.draft)).on s = (.error (.mishap .notADatabase), s) := by
      unfold rewrite
      simp only [on_bind, hc, on_transaction_of_acquire hacquire]
    obtain ⟨logged, hagain⟩ := on_renew_discards ⟨_, congrArg Prod.fst hfirst, by decide⟩
    obtain ⟨s', hon, l, hw⟩ :=
      on_rewrite_ok (s := { s with disk := .absent, logged }) h.tries hl (.inl rfl) hfit
    exact ⟨s', hagain.trans hon, l, hw⟩
  · obtain ⟨s', hon, hw⟩ := on_rewrite_ok h.tries hl hd hfit
    unfold renew
    rw [on_tryCatch, hon]
    exact ⟨s', rfl, hw⟩

/-- A full rebuild succeeds on any store file that is free, if its records can be read and held. -/
theorem on_rebuild_ok {s : Store} (h : s.IsBuildable) (hl : s.isLocked = false)
    {records : List Record} (hread : (Batch.ofRecords records).stopped = none)
    (hheld : (draftsIn records).all storable = true) :
    ∃ s', (rebuild records).on s = (.ok (entitiesIn records).length, s') ∧
      Wrote s (Tables.insert {} (entitiesIn records)) s' := by
  have h' : (s.logging (batchLog records)).IsBuildable := ⟨h.tries, h.place⟩
  obtain ⟨s₁, h₁, hw⟩ := on_renew_ok h' hl (fits_entitiesIn hheld)
  rw [← draftsIn_eq hheld] at h₁
  unfold rebuild
  simp only [on_bind, on_draftsOf, hread, on_guarded_ok h₁, on_get, on_log, on_pure,
    length_draftsIn hheld]
  exact ⟨_, rfl, (Kept.logging _ s).wrote (hw.logging _)⟩

theorem on_replace_ok {s : Store} (htries : 0 ≤ s.settings.maxRetries) (hl : s.isLocked = false)
    {t : Tables} (ht : s.disk.tables? = some t) (paths : List String) {entities : List Entity}
    (hfit : entities.all fits = true) :
    ∃ n s', (replace (paths.map .whole) (entities.map Entity.draft)).on s = (.ok n, s') ∧
      Wrote s (t.merge paths entities) s' := by
  obtain ⟨d, hd, hdt⟩ := tables?_database ht
  have hw := isWritable_of_database htries hl hd
  rw [Database.eq_ofTables hdt] at hd
  have hexchange := on_committed (on_exchange paths hfit s t)
  rw [← eq_holding hd] at hexchange
  exact ⟨_, _, on_transaction hw hexchange, s.logged, rfl⟩

theorem on_requireTables_ok {s : Store} {t : Tables} (ht : s.disk.tables? = some t) :
    requireTables.on s = (.ok t, s) := by
  obtain ⟨d, hd, hdt⟩ := tables?_database ht
  rw [Database.eq_ofTables hdt] at hd
  rw [eq_holding hd, on_requireTables]

theorem on_requireFile_ok {s : Store} {t : Tables} (ht : s.disk.tables? = some t) :
    requireFile.on s = (.ok ⟨⟩, s) := by
  obtain ⟨d, hd, -⟩ := tables?_database ht
  unfold requireFile
  simp only [on_bind, on_get, hd]
  rfl

/-- A merge succeeds on a free store that was built, if its records can be read and held and its paths
can be encoded. -/
theorem on_merge_ok {s : Store} (htries : 0 ≤ s.settings.maxRetries) (hl : s.isLocked = false)
    {t : Tables} (ht : s.disk.tables? = some t) {records : List Record} (paths : List String)
    (hread : (Batch.ofRecords records).stopped = none)
    (hheld : (draftsIn records).all storable = true) :
    ∃ s', (merge records (paths.map .whole)).on s = (.ok (entitiesIn records).length, s') ∧
      Wrote s (t.merge (affected (entitiesIn records) paths) (entitiesIn records)) s' := by
  have hfile := on_requireFile_ok (s := s.logging (batchLog records)) ht
  obtain ⟨n, s₁, h₁, hw⟩ := on_replace_ok (s := s.logging (batchLog records)) htries hl ht
    (affected (entitiesIn records) paths) (fits_entitiesIn hheld)
  rw [← affected_draft, ← draftsIn_eq hheld] at h₁
  unfold merge
  simp only [on_bind, on_draftsOf, hread, hfile, on_guarded_ok h₁, on_log, on_pure,
    length_draftsIn hheld]
  exact ⟨_, rfl, (Kept.logging _ s).wrote (hw.logging _)⟩

/-- A purge succeeds on a free store that was built. -/
theorem on_purge_ok {s : Store} (htries : 0 ≤ s.settings.maxRetries) (hl : s.isLocked = false)
    {t : Tables} (ht : s.disk.tables? = some t) (path : String) :
    ∃ n s', (purge (.whole path)).on s = (.ok n, s') := by
  obtain ⟨d, hd, hdt⟩ := tables?_database ht
  have hw := isWritable_of_database htries hl hd
  rw [Database.eq_ofTables hdt] at hd
  have hwithdraw := on_committed (on_withdraw path s t)
  rw [← eq_holding hd] at hwithdraw
  have hremove : (remove (.whole path)).on s = _ := on_transaction hw hwithdraw
  unfold purge
  simp only [on_bind, on_requireFile_ok ht, on_guarded_ok hremove, on_log, on_pure]
  exact ⟨_, _, rfl⟩

/-- A change whose records, if any, can be read and held, at paths that can be encoded. -/
def IsFeasible : Change → Prop
  | .rebuild records =>
    (Batch.ofRecords records).stopped = none ∧ (draftsIn records).all storable = true
  | .merge records paths =>
    (Batch.ofRecords records).stopped = none ∧ (draftsIn records).all storable = true ∧
      ∀ path ∈ paths, path.whole? ≠ none
  | .purge path => path.whole? ≠ none

theorem on_change_ok {s : Store} (htries : 0 ≤ s.settings.maxRetries) (hl : s.isLocked = false)
    {t : Tables} (ht : s.disk.tables? = some t) {c : Change} (hc : IsFeasible c) :
    ∃ n s', (change c).on s = (.ok n, s') := by
  cases c with
  | rebuild records =>
    obtain ⟨d, hd, -⟩ := tables?_database ht
    obtain ⟨s', hon, -⟩ := on_rebuild_ok ⟨htries, .inr (.inr ⟨d, hd⟩)⟩ hl hc.1 hc.2
    exact ⟨_, s', hon⟩
  | merge records paths =>
    obtain ⟨hread, hheld, hpaths⟩ := hc
    obtain ⟨s', hon, -⟩ := on_merge_ok htries hl ht (Writing.wholes paths) hread hheld
    rw [Writing.map_wholes hpaths] at hon
    exact ⟨_, s', hon⟩
  | purge path =>
    cases path with
    | whole own => exact on_purge_ok htries hl ht own
    | broken points => exact absurd rfl hc

/-- A change that succeeded was one that could. -/
theorem Effect.isFeasible {c : Change} {before : Option Tables} {t : Tables} {n : Nat}
    (h : Effect c before t n) : IsFeasible c := by
  cases h with
  | rebuild hread hheld => exact ⟨hread, hheld⟩
  | merge hread hheld hpaths => exact ⟨hread, hheld, hpaths⟩
  | purge => exact nofun

/-! ## What a change that succeeded tells -/

theorem isWritable_of_transaction {α : Type} {engine : Engine} {body : Action α} {s s' : Store}
    {a : α} (h : (transaction engine body).on s = (.ok a, s')) : s.IsWritable := by
  obtain ⟨hw, -⟩ | ⟨m, events, ha, -⟩ := acquire_cases s
  · exact hw
  · rw [on_transaction_of_acquire ha] at h
    cases (Prod.mk.inj h).1

theorem Kept.settings {s s' : Store} (h : Kept s s') : s'.settings = s.settings := by
  obtain ⟨d, l, rfl, -⟩ := h
  rfl

theorem Kept.isLocked {s s' : Store} (h : Kept s s') : s'.isLocked = s.isLocked := by
  obtain ⟨d, l, rfl, -⟩ := h
  rfl

theorem free_of_attempt {s : Store} (h : s.attempt = .granted) : s.isLocked = false := by
  unfold attempt at h
  split at h
  · cases h
  · cases h
  · cases h
  · split at h
    · cases h
    · rename_i hl
      exact Bool.eq_false_iff.mpr hl

/-- A store that is free and asks for the lock at least once. -/
def IsFree (s : Store) : Prop :=
  0 ≤ s.settings.maxRetries ∧ s.isLocked = false

theorem IsWritable.isFree {s : Store} (h : s.IsWritable) : s.IsFree :=
  ⟨h.1, free_of_attempt h.2⟩

theorem Kept.isFree {s s' : Store} (hk : Kept s s') (h : s'.IsFree) : s.IsFree := by
  obtain ⟨d, l, rfl, -⟩ := hk
  exact h

/-- A change that succeeded found the store free, and has asked for the lock. -/
theorem isFree_of_change {c : Change} {s s' : Store} {n : Nat} (h : (change c).on s = (.ok n, s')) :
    s.IsFree := by
  cases c with
  | rebuild records =>
    obtain ⟨drafts, s₁, hread, h⟩ := on_bind_ok h
    obtain ⟨-, rfl, rfl⟩ := read_of_on_draftsOf hread
    obtain ⟨_, s₂, hrenew, -⟩ := on_bind_ok h
    -- neither attempt changes the settings or the lock
    obtain ⟨disk, logged, hrewrite⟩ := rewrite_of_renew (on_of_guarded hrenew)
    obtain ⟨_, s₃, hfirst, hrest⟩ := on_bind_ok hrewrite
    have hk := keeps_create { s.logging (batchLog records) with disk, logged }
    rw [hfirst] at hk
    exact hk.isFree (isWritable_of_transaction hrest).isFree
  | merge records paths =>
    obtain ⟨drafts, s₁, hread, h⟩ := on_bind_ok h
    obtain ⟨-, rfl, rfl⟩ := read_of_on_draftsOf hread
    obtain ⟨_, s₂, hfile, h⟩ := on_bind_ok h
    have hk := keeps_requireFile (s.logging (batchLog records))
    rw [hfile] at hk
    obtain ⟨_, s₃, hreplace, -⟩ := on_bind_ok h
    exact hk.isFree (isWritable_of_transaction (on_of_guarded hreplace)).isFree
  | purge path =>
    obtain ⟨_, s₁, hfile, h⟩ := on_bind_ok h
    have hk := keeps_requireFile s
    rw [hfile] at hk
    obtain ⟨_, s₂, hremove, -⟩ := on_bind_ok h
    exact hk.isFree (isWritable_of_transaction (on_of_guarded hremove)).isFree

/-- A store that is free and asks for the lock at least once, and drafts that can be held. -/
structure Accepts (s : Store) (drafts : List Draft) : Prop where
  tries : 0 ≤ s.settings.maxRetries
  free : s.isLocked = false
  held : drafts.all storable = true

/-- A rebuild that succeeded was of drafts that can be held, and found the store free. -/
theorem accepts_of_rebuild {records : List Record} {s s' : Store} {n : Nat}
    (h : (rebuild records).on s = (.ok n, s')) : s.Accepts (draftsIn records) := by
  obtain ⟨htries, hfree⟩ := isFree_of_change (c := .rebuild records) h
  obtain ⟨t, -, heffect⟩ := effect_of_rebuild h
  exact ⟨htries, hfree, heffect.isFeasible.2⟩

end CodeIndex.Store
