import CodeIndex.Proofs.Store.Reading
import CodeIndex.Proofs.Store.Refresh

/-!
# A full rebuild forgets the past

Whatever calls were made of a store, and whether they succeeded, there is nothing at its path, or a file that
is no database, or a database: no step puts anything else there.  A full rebuild starts from each of these,
and what it writes is told by its records alone.  So is, then, every answer to later readings.
-/

namespace CodeIndex.Store

variable {α β : Type}

/-! ## What stands at the path -/

/-- Nothing, or a file, which may be no database. -/
def Disk.IsPlace (disk : Disk) : Prop :=
  disk = .absent ∨ disk = .garbage ∨ ∃ d, disk = .database d

/-- A step that leaves nothing or a file where there was nothing or a file. -/
def KeepsPlace (act : Action α) : Prop :=
  ∀ s : Store, s.disk.IsPlace → (act.on s).2.disk.IsPlace

namespace KeepsPlace

variable {act : Action α}

theorem of_disk (h : ∀ s, (act.on s).2.disk = s.disk) : KeepsPlace act := by
  intro s hs
  rwa [h s]

theorem bind {f : α → Action β} (h : KeepsPlace act) (hf : ∀ a, KeepsPlace (f a)) :
    KeepsPlace (act >>= f) := by
  intro s hs
  have hs := h s hs
  rw [on_bind]
  rcases hon : act.on s with ⟨r, s₁⟩
  rw [hon] at hs
  cases r with
  | error e => exact hs
  | ok a => exact hf a s₁ hs

theorem tryCatch {handler : Trouble → Action α} (h : KeepsPlace act)
    (hhandler : ∀ t, KeepsPlace (handler t)) : KeepsPlace (tryCatch act handler) := by
  intro s hs
  have hs := h s hs
  rw [on_tryCatch]
  rcases hon : act.on s with ⟨r, s₁⟩
  rw [hon] at hs
  cases r with
  | ok a => exact hs
  | error t => exact hhandler t s₁ hs

theorem execute (engine : Engine) (statement : Statement) : KeepsPlace (execute engine statement) := by
  intro s hs
  by_cases h : ∃ d, s.disk = .database d
  · obtain ⟨d, hd⟩ := h
    rw [eq_holding hd, on_execute]
    exact .inr (.inr ⟨_, rfl⟩)
  · rw [on_execute_of_ne (fun d hd => h ⟨d, hd⟩)]
    exact hs

theorem executeAll (engine : Engine) (statements : List Statement) :
    KeepsPlace (executeAll engine statements) := by
  induction statements with
  | nil => exact of_disk fun _ => rfl
  | cons statement rest ih => exact (execute engine statement).bind fun _ => ih

theorem clear (engine : Engine) (path : Writing) : KeepsPlace (clear engine path) :=
  (execute engine _).bind fun _ => (execute engine _).bind fun _ => execute engine _

theorem clearAll (engine : Engine) (paths : List Writing) : KeepsPlace (clearAll engine paths) := by
  induction paths with
  | nil => exact of_disk fun _ => rfl
  | cons path rest ih =>
    exact (clear engine path).bind fun _ => ih.bind fun _ => of_disk fun _ => rfl

theorem requireTables : KeepsPlace requireTables := by
  apply of_disk
  intro s
  obtain ⟨t, -, h⟩ | ⟨e, h⟩ := requireTables_cases s <;> rw [h]

theorem requireFile : KeepsPlace requireFile := by
  apply of_disk
  intro s
  rcases requireFile_cases s with h | ⟨e, h⟩ <;> rw [h]

theorem draftsOf (records : List Record) : KeepsPlace (draftsOf records) :=
  of_disk fun s => by rw [on_draftsOf, disk_logging]

theorem transaction {engine : Engine} (h : KeepsPlace act) : KeepsPlace (transaction engine act) := by
  intro s hs
  have hcommitted : KeepsPlace (committed engine act) :=
    h.bind fun _ => (execute engine _).bind fun _ => of_disk fun _ => rfl
  obtain ⟨-, ha⟩ | ⟨m, events, ha, -⟩ := acquire_cases s
  · unfold Store.transaction
    have hdone := hcommitted s hs
    simp only [on_bind, ha, on_get, on_tryCatch]
    rcases hon : (committed engine act).on s with ⟨r, s₁⟩
    rw [hon] at hdone
    cases r with
    | ok a => exact hdone
    | error e => exact hs
  · rw [on_transaction_of_acquire ha]
    exact hs

theorem guarded (h : KeepsPlace act) : KeepsPlace (guarded act) := by
  intro s hs
  have hdone := h s hs
  rcases hon : act.on s with ⟨r, s₁⟩
  rw [hon] at hdone
  cases r with
  | ok a => rwa [on_guarded_ok hon]
  | error t =>
    obtain ⟨t', ht'⟩ := on_guarded_error hon
    rwa [ht']

theorem create : KeepsPlace create := by
  intro s hs
  unfold Store.create
  simp only [on_bind, on_get]
  cases hd : s.disk with
  | absent =>
    simp only
    split
    · exact .inr (.inr ⟨_, rfl⟩)
    · exact hs
  | _ => exact hs

theorem renew (drafts : List Draft) : KeepsPlace (renew drafts) := by
  have hrewrite : KeepsPlace (rewrite drafts) := create.bind fun _ => (executeAll _ _).transaction
  apply hrewrite.tryCatch
  intro t
  -- after a failure the file goes, and the second attempt starts from nothing
  have hdiscard : KeepsPlace (modify fun s => { s with disk := .absent } : Action PUnit) :=
    fun _ _ => .inl rfl
  cases t with
  | failure f => exact of_disk fun _ => rfl
  | mishap m =>
    simp only
    split
    · refine bind (of_disk fun _ => rfl) fun _ => ?_
      exact bind (of_disk fun _ => rfl) fun _ => hdiscard.bind fun _ => hrewrite
    · exact of_disk fun _ => rfl

theorem change (c : Change) : KeepsPlace (change c) := by
  cases c with
  | rebuild records =>
    refine (draftsOf records).bind fun drafts => (renew drafts).guarded.bind fun _ => ?_
    exact of_disk fun _ => rfl
  | merge records paths =>
    refine (draftsOf records).bind fun drafts => requireFile.bind fun _ => ?_
    have hexchange : KeepsPlace (exchange Statement.apply (affected drafts paths) drafts) :=
      requireTables.bind fun _ => (clearAll _ _).bind fun _ => (executeAll _ _).bind fun _ =>
        of_disk fun _ => rfl
    exact hexchange.transaction.guarded.bind fun _ => of_disk fun _ => rfl
  | purge path =>
    have hwithdraw : KeepsPlace (withdraw Statement.apply path) :=
      requireTables.bind fun _ => clear _ _
    refine requireFile.bind fun _ => hwithdraw.transaction.guarded.bind fun _ => ?_
    exact of_disk fun _ => rfl

end KeepsPlace

/-- Whatever was asked of a store that can be built, it can be built. -/
theorem IsBuildable.run {s : Store} (h : s.IsBuildable) (calls : List Call) :
    (run s calls).IsBuildable := by
  unfold Store.run
  induction calls generalizing s with
  | nil => exact h
  | cons c rest ih =>
    have hplace : (c.after s).disk.IsPlace :=
      KeepsPlace.change c.asked { s with isLocked := c.isLocked } h.place
    rw [List.foldl_cons]
    exact ih ⟨(settings_after s c).1 ▸ h.tries, hplace⟩

/-! ## What is read afterwards -/

def answers (s : Store) : List Reading → List (Except Trouble Answer)
  | [] => []
  | r :: rest => (r.act.on s).1 :: answers (r.act.on s).2 rest

/-- No reading changes what the next ones answer. -/
theorem answers_eq {s : Store} {t : Tables} (ht : s.disk.tables? = some t) (h : t.IsSound)
    (readings : List Reading) :
    answers s readings =
      readings.map fun r => (t.answer s.path s.variableLimit r).mapError .mishap := by
  induction readings generalizing s with
  | nil => rfl
  | cons r rest ih =>
    obtain ⟨events, hon⟩ := on_reading ht h r
    rw [answers, hon, List.map_cons, ih (s := s.logging events) ht]
    rfl

theorem Tables.isSound_insert {entities : List Entity} (hids : (entities.map Entity.id).Nodup)
    (h : ∀ e ∈ entities, e.IsNormal) : (Tables.insert {} entities).IsSound :=
  (Represents.empty.putAll hids h).isSound

/-- Take two stores at one path, each of which was never built, or was overwritten, or came about by any
calls from such a store.  A full rebuild from checked records that can be held succeeds on both, answers the
same number and leaves the same rows in the same order, and every later reading answers the same, whatever
was read before it. -/
theorem rebuild_forgets {s₁ s₂ : Store} (h₁ : s₁.IsBuildable) (h₂ : s₂.IsBuildable)
    (hpath : s₁.path = s₂.path) (hlimit : s₁.variableLimit = s₂.variableLimit)
    (calls₁ calls₂ : List Call) {drafts : List Draft} (hnormal : ∀ d ∈ drafts, d.IsNormal)
    (hheld : ∀ m ∈ mergeClauses drafts, storable m = true) :
    ∃ n r₁ r₂,
      (rebuild (drafts.map .draft)).on { run s₁ calls₁ with isLocked := false } = (.ok n, r₁) ∧
        (rebuild (drafts.map .draft)).on { run s₂ calls₂ with isLocked := false } = (.ok n, r₂) ∧
        r₁.disk = r₂.disk ∧
        r₁.disk.tables? = some (Tables.insert {} ((mergeClauses drafts).filterMap Entity.whole?)) ∧
        ∀ readings, answers r₁ readings = answers r₂ readings := by
  have hread := Batch.stopped_drafts drafts
  have hall : (draftsIn (drafts.map .draft)).all storable = true := by
    rw [draftsIn_drafts]
    exact List.all_eq_true.mpr hheld
  obtain ⟨r₁, hon₁, l₁, hr₁⟩ := on_rebuild_ok (s := { run s₁ calls₁ with isLocked := false })
    ⟨(h₁.run calls₁).tries, (h₁.run calls₁).place⟩ rfl hread hall
  obtain ⟨r₂, hon₂, l₂, hr₂⟩ := on_rebuild_ok (s := { run s₂ calls₂ with isLocked := false })
    ⟨(h₂.run calls₂).tries, (h₂.run calls₂).place⟩ rfl hread hall
  have hentities : entitiesIn (drafts.map .draft) = (mergeClauses drafts).filterMap Entity.whole? := by
    rw [entitiesIn, draftsIn_drafts]
  have hsound := Tables.isSound_insert (nodup_map_id_entitiesIn (drafts.map .draft))
    (isNormal_of_mem_entitiesIn hread (List.forall_mem_map.mpr hnormal))
  rw [hentities] at hr₁ hr₂ hsound
  refine ⟨_, r₁, r₂, hon₁, hon₂, by rw [hr₁, hr₂], by rw [hr₁]; rfl, fun readings => ?_⟩
  -- an answer depends on nothing but the tables, the path and what one query takes
  rw [answers_eq (by rw [hr₁]; rfl) hsound, answers_eq (by rw [hr₂]; rfl) hsound, hr₁, hr₂]
  obtain ⟨-, hpath₁, hlimit₁⟩ := settings_run s₁ calls₁
  obtain ⟨-, hpath₂, hlimit₂⟩ := settings_run s₂ calls₂
  simp only [hpath₁, hpath₂, hpath, hlimit₁, hlimit₂, hlimit]

/-- A store that was overwritten, and one with a past of changes that succeeded and others that failed. -/
theorem rebuild_forgets_reshelved :
    let entities := [shelved, { shelved with startLine := 7, endLine := 9 }, { shelved with id := "y" }]
    ∃ n r₁ r₂,
      (rebuild ((entities.map Entity.draft).map .draft)).on { path := "index.db", disk := .garbage } =
          (.ok n, r₁) ∧
        (rebuild ((entities.map Entity.draft).map .draft)).on
          { run { path := "index.db" } reshelved with isLocked := false } = (.ok n, r₂) ∧
        r₁.disk = r₂.disk ∧ ∀ readings, answers r₁ readings = answers r₂ readings := by
  intro entities
  have htries : 0 ≤ ({} : Settings.Database).maxRetries := by decide
  have hgarbage : ({ path := "index.db", disk := .garbage } : Store).IsBuildable :=
    ⟨htries, .inr (.inl rfl)⟩
  have habsent : ({ path := "index.db" } : Store).IsBuildable := ⟨htries, .inl rfl⟩
  have hnormal : ∀ d ∈ entities.map Entity.draft, d.IsNormal := by decide
  obtain ⟨n, r₁, r₂, hon₁, hon₂, hdisk, -, hanswers⟩ :=
    rebuild_forgets hgarbage habsent rfl rfl [] reshelved hnormal (by decide)
  exact ⟨n, r₁, r₂, hon₁, hon₂, hdisk, hanswers⟩

end CodeIndex.Store
