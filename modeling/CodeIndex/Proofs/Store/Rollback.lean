import CodeIndex.Proofs.Store.Retrying
import CodeIndex.Proofs.Store.Statements
import CodeIndex.Scheduler.Machine

/-!
# What a change that fails leaves behind

Whatever the statements of a transaction did before one of them was stopped is undone, whichever it was
and whatever stopped it.  Outside a transaction a change writes the log at most, makes a store file that
holds no tables, or discards one.  A file is discarded by a rebuild alone, and only if what stopped its
first attempt sounds as if the file were no database.  A change that fails otherwise leaves the tables as
they were before it, whatever the database engine does.
-/

namespace CodeIndex.Store

variable {α β : Type}

/-- A change of a store. -/
inductive Change where
  | rebuild (records : List Record)
  | merge (records : List Record) (paths : List Writing)
  | purge (path : Writing)

/-- What the scheduler has done is a change at paths that can be encoded. -/
def Change.ofWork : Scheduler.Work → Change
  | .rebuild records => .rebuild records
  | .merge records paths => .merge records (paths.map .whole)
  | .purge path => .purge (.whole path)

def change (c : Change) (engine : Engine := Statement.apply) : Action Nat :=
  match c with
  | .rebuild records => rebuild records engine
  | .merge records paths => merge records paths engine
  | .purge path => purge path engine

/-- A store that differs from another in its log, and in its disk only so that the tables are the same. -/
def Kept (s s' : Store) : Prop :=
  ∃ disk logged, s' = { s with disk, logged } ∧ disk.tables? = s.disk.tables?

/-- A store that differs from another in its log, and holds some tables. -/
def Wrote (s : Store) (t : Tables) (s' : Store) : Prop :=
  ∃ logged, s' = { s with disk := .database (.ofTables t), logged }

theorem Kept.refl (s : Store) : Kept s s := ⟨s.disk, s.logged, rfl, rfl⟩

theorem Kept.logging (events : List Log.Event) (s : Store) : Kept s (s.logging events) :=
  ⟨s.disk, events ++ s.logged, rfl, rfl⟩

theorem Kept.trans {s s' s'' : Store} (h : Kept s s') (h' : Kept s' s'') : Kept s s'' := by
  obtain ⟨d, l, rfl, hd⟩ := h
  obtain ⟨d', l', rfl, hd'⟩ := h'
  exact ⟨d', l', rfl, hd'.trans hd⟩

theorem Kept.tables? {s s' : Store} (h : Kept s s') : s'.disk.tables? = s.disk.tables? := by
  obtain ⟨d, l, rfl, hd⟩ := h
  exact hd

theorem Kept.wrote {s s' s'' : Store} {t : Tables} (h : Kept s s') (h' : Wrote s' t s'') :
    Wrote s t s'' := by
  obtain ⟨d, l, rfl, -⟩ := h
  obtain ⟨l', rfl⟩ := h'
  exact ⟨l', rfl⟩

theorem Wrote.logging {s s' : Store} {t : Tables} (h : Wrote s t s') (events : List Log.Event) :
    Wrote s t (s'.logging events) := by
  obtain ⟨l, rfl⟩ := h
  exact ⟨events ++ l, rfl⟩

theorem Wrote.tables? {s s' : Store} {t : Tables} (h : Wrote s t s') : s'.disk.tables? = some t := by
  obtain ⟨l, rfl⟩ := h
  rfl

/-! ## The lock -/

def IsWritable (s : Store) : Prop :=
  0 ≤ s.settings.maxRetries ∧ s.attempt = .granted

theorem on_acquire_of_isWritable {s : Store} (h : s.IsWritable) : acquire.on s = (.ok (), s) := by
  rw [on_acquire, Lock.acquire_of_granted (k := 0) h.1 nofun h.2]
  rfl

theorem on_acquire_failed {s : Store} {m : Mishap} (htries : 0 ≤ s.settings.maxRetries)
    (ha : s.attempt = .failed m) : acquire.on s = (.error (.mishap m), s) := by
  rw [on_acquire, Lock.acquire_of_failed (k := 0) htries nofun ha]
  rfl

/-- Of what ends the attempts at the lock, only a file that is no database sounds like one. -/
theorem eq_garbage_of_soundsCorrupt {s : Store} {m : Mishap} (h : s.attempt = .failed m ∨ Lock.GivesUp m)
    (hm : soundsCorrupt m = true) : s.disk = .garbage := by
  rcases h with h | h
  · unfold attempt at h
    cases hd : s.disk with
    | garbage => rfl
    | torn => rw [hd] at h; cases h; exact absurd hm (by decide)
    | noFile => rw [hd] at h; cases h; exact absurd hm (by decide)
    | _ => rw [hd] at h; simp only at h; split at h <;> cases h
  · cases h with
    | locked => exact absurd hm (by decide)
    | _ => cases hm

/-- Taking the lock writes the log at most; it fails unless the lock can be had. -/
theorem acquire_cases (s : Store) :
    (s.IsWritable ∧ acquire.on s = (.ok (), s)) ∨
      ∃ m events, acquire.on s = (.error (.mishap m), s.logging events) ∧
        (soundsCorrupt m = true → s.disk = .garbage) := by
  by_cases hw : s.IsWritable
  · exact .inl ⟨hw, on_acquire_of_isWritable hw⟩
  · obtain ⟨m, hm, hcause⟩ := Lock.exists_error s.settings fun htries hgranted =>
      hw ⟨htries, hgranted⟩
    refine .inr ⟨m, (Lock.notes (Lock.acquire s.settings fun _ => s.attempt).1).reverse, ?_,
      eq_garbage_of_soundsCorrupt hcause⟩
    rw [on_acquire, hm]

/-! ## Transactions -/

section Transaction

variable {α : Type} {engine : Engine} {body : Action α}

theorem on_transaction {s s' : Store} {a : α} (hs : s.IsWritable)
    (h : (committed engine body).on s = (.ok a, s')) :
    (transaction engine body).on s = (.ok a, s') := by
  unfold transaction
  simp only [on_bind, on_acquire_of_isWritable hs, on_get, on_tryCatch, h]

theorem on_transaction_of_acquire {s s' : Store} {e : Trouble} (h : acquire.on s = (.error e, s')) :
    (transaction engine body).on s = (.error e, s') := by
  unfold transaction
  rw [on_bind, h]

/-- A transaction that ends well has done and committed its step. -/
theorem on_committed_of_transaction {s s' : Store} {a : α}
    (h : (transaction engine body).on s = (.ok a, s')) :
    (committed engine body).on s = (.ok a, s') := by
  obtain ⟨-, ha⟩ | ⟨m, events, ha, -⟩ := acquire_cases s
  · unfold transaction at h
    simp only [on_bind, ha, on_get, on_tryCatch] at h
    rcases hon : (committed engine body).on s with ⟨r, s₁⟩
    rw [hon] at h
    cases r with
    | ok b => exact h
    | error e => cases (Prod.mk.inj h).1
  · rw [on_transaction_of_acquire ha] at h
    cases (Prod.mk.inj h).1

/-- A transaction that ends early under the lock ends as its step does, and the disk is put back. -/
theorem on_transaction_error {s s' : Store} {e : Trouble} (ha : acquire.on s = (.ok (), s))
    (h : (transaction engine body).on s = (.error e, s')) :
    ∃ s₁, (committed engine body).on s = (.error e, s₁) ∧ s' = { s₁ with disk := s.disk } := by
  unfold transaction at h
  simp only [on_bind, ha, on_get, on_tryCatch] at h
  rcases hon : (committed engine body).on s with ⟨r, s₁⟩
  rw [hon] at h
  cases r with
  | ok a => cases (Prod.mk.inj h).1
  | error t =>
    simp only [on_modify, on_throw] at h
    obtain ⟨he, rfl⟩ := Prod.mk.inj h
    exact ⟨s₁, by rw [he], rfl⟩

/-- A transaction that ends early leaves the disk as it found it. -/
theorem transaction_failed (hbody : KeepsRest body) {s s' : Store} {e : Trouble}
    (h : (transaction engine body).on s = (.error e, s')) : ∃ logged, s' = { s with logged } := by
  obtain ⟨-, ha⟩ | ⟨m, events, ha, -⟩ := acquire_cases s
  · obtain ⟨s₁, hon, rfl⟩ := on_transaction_error ha h
    obtain ⟨disk, hrest⟩ := hbody.committed engine s
    rw [hon] at hrest
    change s₁ = _ at hrest
    exact ⟨s.logged, by rw [hrest]⟩
  · rw [on_transaction_of_acquire ha] at h
    exact ⟨events ++ s.logged, (Prod.mk.inj h).2.symm⟩

end Transaction

/-! ## Steps that are undone if they fail -/

/-- A step that leaves the tables as they are. -/
def Keeps (act : Action α) : Prop :=
  ∀ s, Kept s (act.on s).2

/-- A step that leaves the tables as they are if it ends early. -/
def Undone (act : Action α) : Prop :=
  ∀ s s' e, act.on s = (.error e, s') → Kept s s'

theorem Keeps.before {act : Action α} {f : α → Action β} (h : Keeps act)
    (hf : ∀ a, Undone (f a)) : Undone (act >>= f) := by
  intro s s' e hon
  have hs := h s
  rcases on_bind_error hon with hfirst | ⟨a, s₁, hfirst, hrest⟩
  · rwa [hfirst] at hs
  · rw [hfirst] at hs
    exact hs.trans (hf a s₁ s' e hrest)

/-- What follows a step that is undone must not fail, since nobody would undo the step then. -/
theorem Undone.then {act : Action α} {f : α → Action β} (h : Undone act)
    (hf : ∀ a s, ∃ b, ((f a).on s).1 = .ok b) : Undone (act >>= f) := by
  intro s s' e hon
  rcases on_bind_error hon with hfirst | ⟨a, s₁, -, hrest⟩
  · exact h s s' e hfirst
  · obtain ⟨b, hb⟩ := hf a s₁
    rw [hrest] at hb
    cases hb

theorem keeps_draftsOf (records : List Record) : Keeps (draftsOf records) := by
  intro s
  rw [on_draftsOf]
  exact .logging _ s

theorem requireFile_cases (s : Store) :
    requireFile.on s = (.ok ⟨⟩, s) ∨ ∃ e, requireFile.on s = (.error e, s) := by
  unfold requireFile
  simp only [on_bind, on_get]
  by_cases h : s.disk.isThere
  · exact .inl (by simp only [h]; rfl)
  · exact .inr ⟨_, by simp only [h]; rfl⟩

theorem keeps_requireFile : Keeps requireFile := by
  intro s
  rcases requireFile_cases s with h | ⟨e, h⟩ <;> rw [h] <;> exact .refl s

theorem undone_transaction {engine : Engine} {body : Action α} (h : KeepsRest body) :
    Undone (transaction engine body) := by
  intro s s' e hon
  obtain ⟨logged, hs'⟩ := transaction_failed h hon
  exact ⟨s.disk, logged, hs', rfl⟩

theorem on_guarded_ok {α : Type} {act : Action α} {s s' : Store} {a : α}
    (h : act.on s = (.ok a, s')) : (guarded act).on s = (.ok a, s') := by
  unfold guarded
  rw [on_tryCatch, h]

/-- A guarded step that fails leaves the store that the step itself leaves. -/
theorem on_guarded_error {α : Type} {act : Action α} {s s' : Store} {t : Trouble}
    (h : act.on s = (.error t, s')) : ∃ t', (guarded act).on s = (.error t', s') := by
  unfold guarded
  rw [on_tryCatch, h]
  cases t with
  | failure f => exact ⟨_, rfl⟩
  | mishap m =>
    -- only the trouble is put in other words
    by_cases hm : isFromDatabase m
    · exact ⟨.failure (.storeUnavailable s'.path m.message), by
        simp only [if_pos hm, on_bind, on_get, on_fail]⟩
    · exact ⟨.mishap m, by simp only [if_neg hm, on_mishap]⟩

theorem Undone.guarded {act : Action α} (h : Undone act) : Undone (guarded act) := by
  intro s s' e hon
  rcases hact : act.on s with ⟨r, s₁⟩
  cases r with
  | ok a =>
    rw [on_guarded_ok hact] at hon
    cases (Prod.mk.inj hon).1
  | error t =>
    obtain ⟨t', ht'⟩ := on_guarded_error hact
    rw [ht'] at hon
    exact (Prod.mk.inj hon).2 ▸ h s s₁ t hact

/-! ## Changes -/

section Changes

variable {engine : Engine}

/-- Making the store file leaves the tables as they are, and brings about no file that is no database.  It
does not end in a mishap. -/
theorem create_cases (s : Store) :
    ∃ r s', create.on s = (r, s') ∧ Kept s s' ∧ (s'.disk = .garbage → s.disk = .garbage) ∧
      ∀ m, r ≠ .error (.mishap m) := by
  unfold create
  simp only [on_bind, on_get]
  cases hd : s.disk with
  | absent =>
    simp only
    split
    · exact ⟨_, _, rfl, ⟨.database {}, s.logged, rfl, by rw [hd]; rfl⟩, nofun, nofun⟩
    · exact ⟨_, _, rfl, .refl s, fun h => hd.symm.trans h, nofun⟩
  | _ => exact ⟨_, _, rfl, .refl s, fun h => hd.symm.trans h, nofun⟩

theorem keeps_create : Keeps create := by
  intro s
  obtain ⟨r, s', h, hk, -⟩ := create_cases s
  rwa [h]

theorem undone_rewrite (drafts : List Draft) : Undone (rewrite drafts engine) :=
  keeps_create.before fun _ => undone_transaction (.refill engine drafts)

/-! ## Files that are taken for no database -/

/-- What stops a rewrite sounds as if the file were no database. -/
def SeemsCorrupt (drafts : List Draft) (engine : Engine) (s : Store) : Prop :=
  ∃ m, ((rewrite drafts engine).on s).1 = .error (.mishap m) ∧ soundsCorrupt m = true

theorem on_renew_error {drafts : List Draft} {s s₁ : Store} {t : Trouble}
    (hfirst : (rewrite drafts engine).on s = (.error t, s₁)) (h : ¬ SeemsCorrupt drafts engine s) :
    (renew drafts engine).on s = (.error t, s₁) := by
  unfold renew
  rw [on_tryCatch, hfirst]
  cases t with
  | failure f => rfl
  | mishap m =>
    have hm : soundsCorrupt m ≠ true := fun hm => h ⟨m, by rw [hfirst], hm⟩
    simp only [if_neg hm, on_mishap]

/-- The file is discarded, and a second attempt starts from nothing. -/
theorem on_renew_discards {drafts : List Draft} {s : Store} (h : SeemsCorrupt drafts engine s) :
    ∃ logged, (renew drafts engine).on s =
      (rewrite drafts engine).on { s with disk := .absent, logged } := by
  obtain ⟨m, hfirst, hm⟩ := h
  rcases hon : (rewrite drafts engine).on s with ⟨r, s₁⟩
  rw [hon] at hfirst
  change r = _ at hfirst
  subst hfirst
  obtain ⟨d, l, rfl, -⟩ := undone_rewrite drafts _ _ _ hon
  unfold renew
  rw [on_tryCatch, hon]
  exact ⟨_, by simp only [if_pos hm, on_bind, on_get, on_log, on_modify]; rfl⟩

/-- The tables that a failing renewal leaves: none if the file seemed corrupt, and else those from before. -/
theorem renew_failed {drafts : List Draft} {s s' : Store} {e : Trouble}
    (h : (renew drafts engine).on s = (.error e, s')) :
    ∃ disk logged, s' = { s with disk, logged } ∧
      (¬ SeemsCorrupt drafts engine s → disk.tables? = s.disk.tables?) ∧
        (SeemsCorrupt drafts engine s → disk.tables? = none) := by
  by_cases hc : SeemsCorrupt drafts engine s
  · obtain ⟨logged, hagain⟩ := on_renew_discards hc
    rw [hagain] at h
    obtain ⟨disk, l, rfl, hd⟩ := undone_rewrite drafts _ _ _ h
    exact ⟨disk, l, rfl, fun hn => absurd hc hn, fun _ => hd⟩
  · rcases hfirst : (rewrite drafts engine).on s with ⟨r, s₁⟩
    cases r with
    | ok a =>
      unfold renew at h
      rw [on_tryCatch, hfirst] at h
      cases (Prod.mk.inj h).1
    | error t =>
      rw [on_renew_error hfirst hc] at h
      obtain ⟨-, rfl⟩ := Prod.mk.inj h
      obtain ⟨disk, l, rfl, hd⟩ := undone_rewrite drafts _ _ _ hfirst
      exact ⟨disk, l, rfl, fun _ => hd, fun hy => absurd hy hc⟩

/-- What stops a refill is not taken for the file, if the engine works. -/
theorem soundsCorrupt_of_refill {drafts : List Draft} {s s' : Store} {m : Mishap}
    (h : (committed Statement.apply (refill Statement.apply drafts)).on s = (.error (.mishap m), s')) :
    soundsCorrupt m = false := by
  by_cases hd : ∃ d, s.disk = .database d
  · obtain ⟨d, hd⟩ := hd
    rw [eq_holding hd] at h
    cases hfit : drafts.all storable with
    | true =>
      obtain ⟨hdrafts, hfits⟩ := entities_of_storable hfit
      rw [hdrafts, on_committed (on_refill hfits s d)] at h
      cases (Prod.mk.inj h).1
    | false =>
      obtain ⟨m', hm, hstop⟩ := on_refill_error hfit
      obtain ⟨d', hstop⟩ := hstop s d
      rw [on_committed_error hstop] at h
      obtain ⟨he, -⟩ := Prod.mk.inj h
      injection he with he
      injection he with he
      subst he
      cases hm <;> rfl
  · rw [on_committed_error (on_refill_of_ne (fun d h => hd ⟨d, h⟩) _ drafts)] at h
    obtain ⟨he, -⟩ := Prod.mk.inj h
    injection he with he
    injection he with he
    subst he
    decide

/-- With an engine that works, only a file that is no database seems so. -/
theorem eq_garbage_of_seemsCorrupt {drafts : List Draft} {s : Store}
    (h : SeemsCorrupt drafts Statement.apply s) : s.disk = .garbage := by
  obtain ⟨m, hfirst, hm⟩ := h
  rcases hon : (rewrite drafts Statement.apply).on s with ⟨r, s'⟩
  rw [hon] at hfirst
  change r = _ at hfirst
  subst hfirst
  obtain ⟨r, s₁, hcreate, -, hback, hne⟩ := create_cases s
  rcases on_bind_error hon with hfirst | ⟨_, s₂, hfirst, hrest⟩
  · rw [hcreate] at hfirst
    exact absurd (Prod.mk.inj hfirst).1 (hne m)
  · obtain ⟨-, rfl⟩ := Prod.mk.inj (hcreate.symm.trans hfirst)
    obtain ⟨-, ha⟩ | ⟨m', events, ha, hgarbage⟩ := acquire_cases s₁
    · obtain ⟨_, hbody, -⟩ := on_transaction_error ha hrest
      rw [soundsCorrupt_of_refill hbody] at hm
      cases hm
    · rw [on_transaction_of_acquire ha] at hrest
      obtain ⟨he, -⟩ := Prod.mk.inj hrest
      injection he with he
      injection he with he
      exact hback (hgarbage (he ▸ hm))

/-! ## Whole changes -/

/-- A change that discards the file, which it takes for none of a database. -/
def Discards (engine : Engine) (s : Store) : Change → Prop
  | .rebuild records => (Batch.ofRecords records).stopped = none ∧
      SeemsCorrupt (draftsIn records) engine (s.logging (batchLog records))
  | _ => False

theorem undone_merge (records : List Record) (paths : List Writing) :
    Undone (merge records paths engine) := by
  refine (keeps_draftsOf records).before fun drafts => keeps_requireFile.before fun _ => ?_
  have hreplace : Undone (replace (affected drafts paths) drafts engine) :=
    undone_transaction (.exchange _ _ _)
  refine hreplace.guarded.then fun _ s => ⟨drafts.length, ?_⟩
  simp only [on_bind, on_log, on_pure]

theorem undone_purge (path : Writing) : Undone (purge path engine) := by
  refine keeps_requireFile.before fun _ => ?_
  have hremove : Undone (remove path engine) := undone_transaction (.withdraw _ _)
  refine hremove.guarded.then fun removed s => ⟨removed, ?_⟩
  simp only [on_bind, on_log, on_pure]

end Changes

end CodeIndex.Store
