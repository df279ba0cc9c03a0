import CodeIndex.Proofs.Store.Rollback

/-!
# What a change of the store comes to

There are three changes: a full rebuild, a merge of some files, and a purge of one.  Each ends in one of
two ways.  It succeeds, and the tables are then what `Effect` says, or it fails, and the tables are those
from before it.
-/

namespace CodeIndex.Store

/-- What a successful change makes of the tables, and the number that it answers.  All that it was given
could be held. -/
inductive Effect : Change → Option Tables → Tables → Nat → Prop where
  | rebuild {records : List Record} {before : Option Tables}
      (hread : (Batch.ofRecords records).stopped = none)
      (hheld : (draftsIn records).all storable = true) :
      Effect (.rebuild records) before (Tables.insert {} (entitiesIn records))
        (entitiesIn records).length
  | merge {records : List Record} {paths : List Writing} {t : Tables}
      (hread : (Batch.ofRecords records).stopped = none)
      (hheld : (draftsIn records).all storable = true)
      (hpaths : ∀ path ∈ paths, path.whole? ≠ none) :
      Effect (.merge records paths) (some t)
        (t.merge (affected (entitiesIn records) (Writing.wholes paths)) (entitiesIn records))
        (entitiesIn records).length
  | purge {path : String} {t : Tables} :
      Effect (.purge (.whole path)) (some t) (t.purge path)
        (t.entities.length - (t.purge path).entities.length)

/-- The tables after a change that succeeds; a store that was never built counts as one with nothing in
its tables. -/
def applied (t : Tables) : Change → Tables
  | .rebuild records => Tables.insert {} (entitiesIn records)
  | .merge records paths =>
    t.merge (affected (entitiesIn records) (Writing.wholes paths)) (entitiesIn records)
  | .purge path => t.purgeAll path.whole?.toList

theorem Effect.eq_applied {c : Change} {before : Option Tables} {t : Tables} {n : Nat}
    (h : Effect c before t n) : t = applied (before.getD {}) c := by
  cases h <;> rfl

/-! ## Drafts that are held -/

theorem draftsIn_eq {records : List Record} (h : (draftsIn records).all storable = true) :
    draftsIn records = (entitiesIn records).map Entity.draft :=
  (entities_of_storable h).1

theorem fits_entitiesIn {records : List Record} (h : (draftsIn records).all storable = true) :
    (entitiesIn records).all fits = true :=
  (entities_of_storable h).2

theorem length_draftsIn {records : List Record} (h : (draftsIn records).all storable = true) :
    (draftsIn records).length = (entitiesIn records).length := by
  rw [draftsIn_eq h, List.length_map]

theorem Effect.count_of_merge {records : List Record} {paths : List Writing} {before : Option Tables}
    {t : Tables} {n : Nat} (h : Effect (.merge records paths) before t n) :
    n = (draftsIn records).length := by
  cases h with
  | merge _ hheld => exact (length_draftsIn hheld).symm

theorem affected_draft (entities : List Entity) (paths : List String) :
    affected (entities.map Entity.draft) (paths.map .whole) =
      (affected entities paths).map .whole := by
  have hpaths : (entities.map Entity.draft).map Entity.path = (entities.map Entity.path).map .whole := by
    rw [List.map_map, List.map_map]
    rfl
  unfold affected
  rw [hpaths, ← List.map_append, ← Text.map_distinct fun _ _ => Writing.whole.inj]
  exact (Text.map_sortedBy (fun _ _ => rfl) _).symm

/-! ## What was committed -/

/-- What is committed by a rewrite is the drafts, which can be held then, on what is a database. -/
theorem wrote_of_refill {drafts : List Draft} {s s' : Store}
    (h : (committed Statement.apply (refill Statement.apply drafts)).on s = (.ok (), s')) :
    drafts.all storable = true ∧ Wrote s (Tables.insert {} (drafts.filterMap Entity.whole?)) s' := by
  by_cases hd : ∃ d, s.disk = .database d
  · obtain ⟨d, hd⟩ := hd
    rw [eq_holding hd] at h
    cases hheld : drafts.all storable with
    | true =>
      obtain ⟨hdrafts, hfits⟩ := entities_of_storable hheld
      rw [hdrafts, on_committed (on_refill hfits s d)] at h
      exact ⟨rfl, s.logged, (Prod.mk.inj h).2.symm⟩
    | false =>
      obtain ⟨m, -, hstop⟩ := on_refill_error hheld
      obtain ⟨d', hstop⟩ := hstop s d
      rw [on_committed_error hstop] at h
      cases (Prod.mk.inj h).1
  · rw [on_committed_error (on_refill_of_ne (fun d h => hd ⟨d, h⟩) _ drafts)] at h
    cases (Prod.mk.inj h).1

theorem wrote_of_rewrite {drafts : List Draft} {s s' : Store}
    (h : (rewrite drafts).on s = (.ok (), s')) :
    drafts.all storable = true ∧ Wrote s (Tables.insert {} (drafts.filterMap Entity.whole?)) s' := by
  have hk := keeps_create s
  obtain ⟨_, s₁, hfirst, hrest⟩ := on_bind_ok h
  rw [hfirst] at hk
  obtain ⟨hheld, hw⟩ := wrote_of_refill (on_committed_of_transaction hrest)
  exact ⟨hheld, hk.wrote hw⟩

/-- A renewal that succeeds did so at its first attempt, or at a second one on a store that is the same but
for its log and its disk. -/
theorem rewrite_of_renew {drafts : List Draft} {s s' : Store} (h : (renew drafts).on s = (.ok (), s')) :
    ∃ disk logged, (rewrite drafts).on { s with disk, logged } = (.ok (), s') := by
  by_cases hc : SeemsCorrupt drafts Statement.apply s
  · obtain ⟨logged, hagain⟩ := on_renew_discards hc
    exact ⟨.absent, logged, hagain ▸ h⟩
  · rcases hfirst : (rewrite drafts).on s with ⟨r, s₁⟩
    cases r with
    | ok a =>
      unfold renew at h
      rw [on_tryCatch, hfirst] at h
      exact ⟨s.disk, s.logged, hfirst.trans h⟩
    | error t =>
      rw [on_renew_error hfirst hc] at h
      cases (Prod.mk.inj h).1

theorem wrote_of_renew {drafts : List Draft} {s s' : Store}
    (h : (renew drafts).on s = (.ok (), s')) :
    drafts.all storable = true ∧ Wrote s (Tables.insert {} (drafts.filterMap Entity.whole?)) s' := by
  obtain ⟨disk, logged, hon⟩ := rewrite_of_renew h
  obtain ⟨hheld, l, hw⟩ := wrote_of_rewrite hon
  exact ⟨hheld, l, hw⟩

theorem tables?_database {s : Store} {t : Tables} (ht : s.disk.tables? = some t) :
    ∃ d, s.disk = .database d ∧ d.tables? = some t := by
  cases hd : s.disk with
  | database d => exact ⟨d, rfl, by rw [hd] at ht; exact ht⟩
  | _ => rw [hd] at ht; cases ht

/-- Where paths were replaced, all of them and all drafts could be handed to the tables. -/
theorem wrote_of_replace {paths : List Writing} {drafts : List Draft} {s s' : Store} {n : Nat}
    (h : (replace paths drafts).on s = (.ok n, s')) :
    (∀ path ∈ paths, path.whole? ≠ none) ∧ drafts.all storable = true ∧
      ∃ t, s.disk.tables? = some t ∧
        Wrote s (t.merge (Writing.wholes paths) (drafts.filterMap Entity.whole?)) s' := by
  have hcommit := on_committed_of_transaction h
  rcases requireTables_cases s with ⟨t, ht, -⟩ | ⟨e, he⟩
  · -- the tables were there, and what was committed is the exchange of all rows
    obtain ⟨d, hd, hdt⟩ := tables?_database ht
    rw [Database.eq_ofTables hdt] at hd
    rw [eq_holding hd] at hcommit
    by_cases hstop : (∃ path ∈ paths, path.whole? = none) ∨ drafts.all storable = false
    · obtain ⟨m, -, hstop⟩ := on_exchange_error hstop
      obtain ⟨d', herr⟩ := hstop s t
      rw [on_committed_error herr] at hcommit
      cases (Prod.mk.inj hcommit).1
    · obtain ⟨hpaths, hheld⟩ := not_or.mp hstop
      have hwhole : ∀ path ∈ paths, path.whole? ≠ none := fun path hmem hnone =>
        hpaths ⟨path, hmem, hnone⟩
      have hheld : drafts.all storable = true := by simpa using hheld
      obtain ⟨hdrafts, hfits⟩ := entities_of_storable hheld
      rw [hdrafts, ← Writing.map_wholes hwhole, on_committed (on_exchange _ hfits s t)] at hcommit
      exact ⟨hwhole, hheld, t, ht, s.logged, (Prod.mk.inj hcommit).2.symm⟩
  · have herr : (exchange Statement.apply paths drafts).on s = (.error e, s) := by
      simp only [exchange, on_bind, he]
    rw [on_committed_error herr] at hcommit
    cases (Prod.mk.inj hcommit).1

theorem wrote_of_remove {path : Writing} {s s' : Store} {n : Nat}
    (h : (remove path).on s = (.ok n, s')) :
    ∃ own t, path = .whole own ∧ s.disk.tables? = some t ∧
      n = t.entities.length - (t.purge own).entities.length ∧ Wrote s (t.purge own) s' := by
  have hcommit := on_committed_of_transaction h
  rcases requireTables_cases s with ⟨t, ht, -⟩ | ⟨e, he⟩
  · obtain ⟨d, hd, hdt⟩ := tables?_database ht
    rw [Database.eq_ofTables hdt] at hd
    rw [eq_holding hd] at hcommit
    cases path with
    | broken points =>
      rw [on_committed_error (on_withdraw_broken points s t)] at hcommit
      cases (Prod.mk.inj hcommit).1
    | whole own =>
      rw [on_committed (on_withdraw own s t)] at hcommit
      obtain ⟨hn, hs'⟩ := Prod.mk.inj hcommit
      injection hn with hn
      exact ⟨own, t, rfl, ht, hn.symm, s.logged, hs'.symm⟩
  · have herr : (withdraw Statement.apply path).on s = (.error e, s) := by
      simp only [withdraw, on_bind, he]
    rw [on_committed_error herr] at hcommit
    cases (Prod.mk.inj hcommit).1

/-- A guarded step that ends well is the step itself. -/
theorem on_of_guarded {α : Type} {act : Action α} {s s' : Store} {a : α}
    (h : (guarded act).on s = (.ok a, s')) : act.on s = (.ok a, s') := by
  rcases hact : act.on s with ⟨r, s₁⟩
  cases r with
  | ok b => rw [← h, on_guarded_ok hact]
  | error t =>
    obtain ⟨t', ht'⟩ := on_guarded_error hact
    rw [ht'] at h
    cases (Prod.mk.inj h).1

/-- A guarded step that fails leaves what the step itself left when it failed. -/
theorem error_of_guarded {α : Type} {act : Action α} {s s' : Store} {e : Trouble}
    (h : (guarded act).on s = (.error e, s')) : ∃ t, act.on s = (.error t, s') := by
  rcases hact : act.on s with ⟨r, s₁⟩
  cases r with
  | ok a =>
    rw [on_guarded_ok hact] at h
    cases (Prod.mk.inj h).1
  | error t =>
    obtain ⟨t', ht'⟩ := on_guarded_error hact
    rw [ht'] at h
    exact ⟨t, by rw [(Prod.mk.inj h).2]⟩

/-! ## Inversion: what a change can come to -/

/-- A batch that is read to its end. -/
theorem read_of_on_draftsOf {records : List Record} {s s' : Store} {drafts : List Draft}
    (h : (draftsOf records).on s = (.ok drafts, s')) :
    (Batch.ofRecords records).stopped = none ∧ drafts = draftsIn records ∧
      s' = s.logging (batchLog records) := by
  rw [on_draftsOf] at h
  obtain ⟨hr, rfl⟩ := Prod.mk.inj h
  cases hread : (Batch.ofRecords records).stopped with
  | some fault => rw [hread] at hr; cases hr
  | none =>
    rw [hread] at hr
    injection hr with hr
    exact ⟨rfl, hr.symm, rfl⟩

theorem effect_of_rebuild {records : List Record} {s s' : Store} {n : Nat}
    (h : (rebuild records).on s = (.ok n, s')) :
    ∃ t, Wrote s t s' ∧ Effect (.rebuild records) s.disk.tables? t n := by
  obtain ⟨drafts, s₁, hread, h⟩ := on_bind_ok h
  obtain ⟨hstopped, rfl, rfl⟩ := read_of_on_draftsOf hread
  obtain ⟨_, s₂, hrenew, h⟩ := on_bind_ok h
  obtain ⟨hheld, hw⟩ := wrote_of_renew (on_of_guarded hrenew)
  simp only [on_bind, on_get, on_log, on_pure, length_draftsIn hheld] at h
  obtain ⟨hn, rfl⟩ := Prod.mk.inj h
  injection hn with hn
  subst hn
  exact ⟨_, (Kept.logging _ s).wrote (hw.logging _), .rebuild hstopped hheld⟩

/-- A merge that succeeds has written the merged tables. -/
theorem effect_of_merge {records : List Record} {paths : List Writing} {s s' : Store} {n : Nat}
    (h : (merge records paths).on s = (.ok n, s')) :
    ∃ t, Wrote s t s' ∧ Effect (.merge records paths) s.disk.tables? t n := by
  obtain ⟨drafts, s₁, hread, h⟩ := on_bind_ok h
  obtain ⟨hstopped, rfl, rfl⟩ := read_of_on_draftsOf hread
  obtain ⟨_, s₂, hfile, h⟩ := on_bind_ok h
  have hk := keeps_requireFile (s.logging (batchLog records))
  rw [hfile] at hk
  obtain ⟨_, s₃, hreplace, h⟩ := on_bind_ok h
  obtain ⟨hpaths, hheld, t, ht, hw⟩ := wrote_of_replace (on_of_guarded hreplace)
  rw [hk.tables?] at ht
  change s.disk.tables? = some t at ht
  simp only [on_bind, on_log, on_pure, length_draftsIn hheld] at h
  obtain ⟨hn, rfl⟩ := Prod.mk.inj h
  injection hn with hn
  subst hn
  -- the paths affected are those listed and those of the entities
  have hlisted : ∀ path ∈ paths, path.whole? ≠ none := fun path hmem =>
    hpaths path (by rw [affected, Text.mem_sortedBy, Text.mem_distinct]; exact List.mem_append_right _ hmem)
  have haffected : Writing.wholes (affected (draftsIn records) paths) =
      affected (entitiesIn records) (Writing.wholes paths) := by
    rw [draftsIn_eq hheld]
    conv_lhs => rw [← Writing.map_wholes hlisted]
    rw [affected_draft, Writing.wholes_map]
  rw [haffected] at hw
  rw [ht]
  exact ⟨_, ((Kept.logging _ s).trans hk).wrote (hw.logging _), .merge hstopped hheld hlisted⟩

theorem effect_of_purge {path : Writing} {s s' : Store} {n : Nat}
    (h : (purge path).on s = (.ok n, s')) :
    ∃ t, Wrote s t s' ∧ Effect (.purge path) s.disk.tables? t n := by
  obtain ⟨_, s₁, hfile, h⟩ := on_bind_ok h
  have hk := keeps_requireFile s
  rw [hfile] at hk
  obtain ⟨removed, s₂, hremove, h⟩ := on_bind_ok h
  obtain ⟨own, t, rfl, ht, rfl, hw⟩ := wrote_of_remove (on_of_guarded hremove)
  rw [hk.tables?] at ht
  simp only [on_bind, on_log, on_pure] at h
  obtain ⟨hn, rfl⟩ := Prod.mk.inj h
  injection hn with hn
  subst hn
  rw [ht]
  exact ⟨_, hk.wrote (hw.logging _), .purge⟩

/-- What a change leaves that fails, whatever the engine: the tables from before it, unless it discarded
them. -/
theorem change_failed {engine : Engine} {c : Change} {s s' : Store} {e : Trouble}
    (h : (change c engine).on s = (.error e, s')) :
    ∃ disk logged, s' = { s with disk, logged } ∧
      (¬ Discards engine s c → disk.tables? = s.disk.tables?) ∧
        (Discards engine s c → disk.tables? = none) := by
  have hkept : Kept s s' → (¬ Discards engine s c) → ∃ disk logged, s' = { s with disk, logged } ∧
      (¬ Discards engine s c → disk.tables? = s.disk.tables?) ∧
        (Discards engine s c → disk.tables? = none) := by
    rintro ⟨disk, logged, rfl, hd⟩ hnot
    exact ⟨disk, logged, rfl, fun _ => hd, fun hc => absurd hc hnot⟩
  cases c with
  | merge records paths => exact hkept (undone_merge records paths s s' e h) id
  | purge path => exact hkept (undone_purge path s s' e h) id
  | rebuild records =>
    rcases on_bind_error h with hread | ⟨drafts, s₁, hread, h⟩
    · -- the batch was not read to its end
      have hk := keeps_draftsOf records s
      rw [hread] at hk
      refine hkept hk fun hc => ?_
      rw [on_draftsOf, hc.1] at hread
      cases (Prod.mk.inj hread).1
    · obtain ⟨hstopped, rfl, rfl⟩ := read_of_on_draftsOf hread
      rcases on_bind_error h with hrenew | ⟨_, s₂, -, hrest⟩
      · obtain ⟨t', hfailed⟩ := error_of_guarded hrenew
        obtain ⟨disk, logged, rfl, hkeeps, hdiscards⟩ := renew_failed hfailed
        exact ⟨disk, logged, rfl, fun hn => hkeeps fun hc => hn ⟨hstopped, hc⟩,
          fun hc => hdiscards hc.2⟩
      · simp only [on_bind, on_get, on_log, on_pure] at hrest
        cases (Prod.mk.inj hrest).1

/-- What is discarded by an engine that works held no tables. -/
theorem tables?_of_discards {c : Change} {s : Store} (h : Discards Statement.apply s c) :
    s.disk.tables? = none := by
  cases c with
  | rebuild records =>
    have hdisk := eq_garbage_of_seemsCorrupt h.2
    rw [disk_logging] at hdisk
    rw [hdisk]
    rfl
  | _ => cases h

/-- A change that fails leaves the tables as they were, if the engine works. -/
theorem undone_change (c : Change) : Undone (change c) := by
  intro s s' e h
  obtain ⟨disk, logged, rfl, hkeeps, hdiscards⟩ := change_failed h
  refine ⟨disk, logged, rfl, ?_⟩
  by_cases hc : Discards Statement.apply s c
  · rw [hdiscards hc, tables?_of_discards hc]
  · exact hkeeps hc

/-- A change has its effect, or it fails and the tables are those from before it. -/
theorem change_cases (c : Change) (s : Store) :
    (∃ n t s', (change c).on s = (.ok n, s') ∧ Wrote s t s' ∧ Effect c s.disk.tables? t n) ∨
      ∃ e s', (change c).on s = (.error e, s') ∧ Kept s s' := by
  rcases hon : (change c).on s with ⟨r, s'⟩
  cases r with
  | error e => exact .inr ⟨e, s', rfl, undone_change c s s' e hon⟩
  | ok n =>
    have heffect : ∃ t, Wrote s t s' ∧ Effect c s.disk.tables? t n := by
      cases c with
      | merge records paths => exact effect_of_merge hon
      | rebuild records => exact effect_of_rebuild hon
      | purge path => exact effect_of_purge hon
    obtain ⟨t, hw, he⟩ := heffect
    exact .inl ⟨n, t, s', rfl, hw, he⟩

/-! ## All or nothing -/

/-- A change that fails on a store that was built leaves the three tables exactly as they are, at whichever
of its statements the database engine stops it, and whatever that statement has done by then; unless it is a
rebuild that takes what stopped it for a file that is no database, which costs the store all of its tables.
A change that succeeds has done all of its work. -/
theorem all_or_nothing {s : Store} {t : Tables} (hs : s.disk.tables? = some t) (c : Change) :
    (∀ engine e s', (change c engine).on s = (.error e, s') →
        (¬ Discards engine s c → s'.disk.tables? = some t) ∧
          (Discards engine s c → s'.disk.tables? = none)) ∧
      (¬ Discards Statement.apply s c) ∧
      ∀ n s', (change c).on s = (.ok n, s') → s'.disk.tables? = some (applied t c) := by
  refine ⟨?_, ?_, ?_⟩
  · intro engine e s' hon
    obtain ⟨disk, logged, rfl, hkeeps, hdiscards⟩ := change_failed hon
    exact ⟨fun hn => (hkeeps hn).trans hs, hdiscards⟩
  · intro hc
    rw [tables?_of_discards hc] at hs
    cases hs
  · intro n s' hon
    obtain ⟨n', t', s'', hon', hw, he⟩ | ⟨e, s'', hon', -⟩ := change_cases c s
    · rw [hon] at hon'
      obtain ⟨-, rfl⟩ := Prod.mk.inj hon'
      rw [hw.tables?, he.eq_applied, hs]
      rfl
    · rw [hon] at hon'
      cases (Prod.mk.inj hon').1

/-- A batch of which the second entity has a number that the tables cannot hold. -/
def oversized : Change :=
  let e : Entity := { id := "x", container := "A", name := "f", arity := 1, path := "a.ex"
                      startLine := 1, endLine := 2, lexicalText := "", references := ["B.g/0"] }
  .merge [.entity e, .entity { e with id := "y", startLine := integerBound, endLine := integerBound }]
    [.whole "b.ex"]

def furnished : Tables :=
  { entities := [{ id := "x", container := "A", name := "f", arity := 0, path := "b.ex"
                   startLine := 3, endLine := 4, lexicalText := "" }]
    edges := [⟨"x", "C.h/2"⟩]
    texts := [⟨"x", "A", ""⟩] }

/-- An engine that finds no room for entities, and reports what it was given. -/
def cramped : Engine
  | .putEntities drafts, d =>
    let docs := drafts.filterMap fun e => e.doc.bind Writing.whole?
    (d, .error (.database "OperationalError" ("database or disk is full [parameters: " ++
      ", ".intercalate docs ++ "]")))
  | statement, d => statement.apply d

theorem all_or_nothing_oversized :
    let s : Store := { path := "index.db", disk := .database (.ofTables furnished) }
    (∃ e s', (change oversized).on s = (.error e, s') ∧ s'.disk.tables? = some furnished) ∧
      ∃ s', (change (.purge (.whole "b.ex"))).on s = (.ok 1, s') ∧ s'.disk.tables? = some {} := by
  intro s
  obtain ⟨e, s₁, h₁⟩ : ∃ e s', (change oversized).on s = (.error e, s') := by
    have herror : ((change oversized).on s).1.toOption = none := by decide +kernel
    rcases hon : (change oversized).on s with ⟨r, s'⟩
    rw [hon] at herror
    cases r with
    | ok n => cases herror
    | error e => exact ⟨e, s', rfl⟩
  have h₂ : (change (.purge (.whole "b.ex"))).on s =
      (.ok 1, ((change (.purge (.whole "b.ex"))).on s).2) := rfl
  obtain ⟨hfails, hworks, -⟩ := all_or_nothing (s := s) rfl oversized
  exact ⟨⟨e, s₁, h₁, (hfails _ _ _ h₁).1 hworks⟩, _, h₂, (all_or_nothing (s := s) rfl _).2.2 _ _ h₂⟩

/-- Where there is no room, a rebuild from an entity whose documentation has the words that it goes by
fails and leaves nothing. -/
theorem lost_of_cramped :
    let s : Store := { path := "index.db", disk := .database (.ofTables furnished) }
    let e : Entity := { id := "y", container := "A", name := "g", arity := 0, path := "c.ex"
                        startLine := 1, endLine := 2, lexicalText := ""
                        doc := some "A string is not a database." }
    ((change (.rebuild [.entity e]) cramped).on s).1.toOption = none ∧
      s.disk.tables? = some furnished ∧
        ((change (.rebuild [.entity e]) cramped).on s).2.disk.tables? = none := by
  decide +kernel

end CodeIndex.Store
