import CodeIndex.Proofs.Store.Capacity
import CodeIndex.Proofs.Store.Reading

/-!
# What a failure tells of the store file

A store without its tables is either not built, or the file is no sound database.  The first is told alike
whatever was asked.  The second is a failure of the store where a change meets it; where a reading meets
it, it is the trouble of the database engine itself, since a reading is not guarded.  And even a store that
was built does not take all that it may be asked: numbers, texts and how many of them are checked by the
engine alone.
-/

namespace CodeIndex.Store

/-- What the database engine makes of a file that is no sound database. -/
def Disk.obstacle? : Disk → Option Mishap
  | .garbage => some .notADatabase
  | .torn => some .malformedFile
  | .noFile => some .cannotOpen
  | _ => none

/-- What is wrong with a disk without the tables. -/
def Disk.refusal (path : String) (disk : Disk) : Trouble :=
  match disk.obstacle? with
  | some m => .mishap m
  | none => .failure (.schemaMissing path)

variable {α : Type} {s : Store}

/-! ## Where a step stops -/

theorem on_requireTables_refused (h : s.disk.tables? = none) :
    requireTables.on s = (.error (s.disk.refusal s.path), s) := by
  unfold requireTables
  simp only [on_bind, on_get]
  cases hd : s.disk with
  | database db =>
    have hdb : db.tables? = none := by
      rw [hd] at h
      exact h
    simp only [hdb]
    rfl
  | _ => rfl

theorem on_requireFile_refused (h : s.disk.isThere = false) :
    requireFile.on s = (.error (s.disk.refusal s.path), s) := by
  unfold requireFile
  simp only [on_bind, on_get, h]
  cases hd : s.disk with
  | absent => rfl
  | noDirectory reason => rfl
  | _ => rw [hd] at h; cases h

theorem on_requireFile_there (h : s.disk.isThere = true) : requireFile.on s = (.ok ⟨⟩, s) := by
  unfold requireFile
  simp only [on_bind, on_get, h]
  rfl

/-- What needs the file and then the tables stops at one of them. -/
theorem on_required (h : s.disk.tables? = none) (f : Tables → Action α) :
    (requireFile >>= fun _ => requireTables >>= f).on s = (.error (s.disk.refusal s.path), s) := by
  cases hthere : s.disk.isThere with
  | true => simp only [on_bind, on_requireFile_there hthere, on_requireTables_refused h]
  | false => simp only [on_bind, on_requireFile_refused hthere]

/-- A transaction that needs the tables stops at the lock if there is no database to lock, and at the
tables otherwise. -/
theorem on_transaction_refused (h : s.disk.tables? = none) (hthere : s.disk.isThere = true)
    (hfree : s.isLocked = false) (htries : 0 ≤ s.settings.maxRetries) (engine : Engine)
    (f : Tables → Action α) :
    (transaction engine (requireTables >>= f)).on s = (.error (s.disk.refusal s.path), s) := by
  have hlock : ∀ m, s.attempt = .failed m → s.disk.refusal s.path = .mishap m →
      (transaction engine (requireTables >>= f)).on s = (.error (s.disk.refusal s.path), s) := by
    intro m ha hm
    rw [hm]
    exact on_transaction_of_acquire (on_acquire_failed htries ha)
  cases hd : s.disk with
  | absent => rw [hd] at hthere; cases hthere
  | noDirectory reason => rw [hd] at hthere; cases hthere
  | noFile => exact hd ▸ hlock .cannotOpen (by unfold attempt; rw [hd]) (by rw [hd]; rfl)
  | garbage => exact hd ▸ hlock .notADatabase (by unfold attempt; rw [hd]) (by rw [hd]; rfl)
  | torn => exact hd ▸ hlock .malformedFile (by unfold attempt; rw [hd]) (by rw [hd]; rfl)
  | database db =>
    have hw := isWritable_of_database htries hfree hd
    have hcommitted : (committed engine (requireTables >>= f)).on s =
        (.error (s.disk.refusal s.path), s) := by
      apply on_committed_error
      rw [on_bind, on_requireTables_refused h]
    rw [← hd]
    unfold transaction
    simp only [on_bind, on_acquire_of_isWritable hw, on_get, on_tryCatch, hcommitted, on_modify, on_throw]

/-! ## What is asked -/

/-- What is asked of a store that has to be built: a reading, or a change of a part. -/
inductive Demand where
  | read (r : Reading)
  | merge (records : List Record) (paths : List Writing)
  | purge (path : Writing)

namespace Demand

/-- The step that does what is asked, whatever it answers. -/
def act : Demand → Action Unit
  | .read r => do
    let _ ← r.act
    return ()
  | .merge records paths => do
    let _ ← Store.merge records paths
    return ()
  | .purge path => do
    let _ ← Store.purge path
    return ()

/-- A search for no entities at all, which is answered without the store. -/
def IsIdle : Demand → Prop
  | .read (.search _ k) => k ≤ 0
  | _ => False

/-- What is asked needs the tables, unless it is idle, and its records can be read. -/
def IsProper : Demand → Prop
  | .read (.search query _) => isBlank query = false
  | .read (.entities ids) => ids ≠ []
  | .read (.neighbors ..) => True
  | .read .status => False
  | .merge records _ => (Batch.ofRecords records).stopped = none
  | .purge _ => True

/-- The tables, and a query over so many values, take the numbers and texts of what is asked. -/
def IsTaken (limit : Nat) : Demand → Prop
  | .read (.search query k) => query.whole? ≠ none ∧ isInRange k = true
  | .read (.entities ids) => ids.length ≤ limit ∧ ∀ id ∈ ids, id.whole? ≠ none
  | .read (.neighbors id most) => id.whole? ≠ none ∧ isInRange most = true
  | .read .status => True
  | .merge records paths =>
    (draftsIn records).all storable = true ∧ ∀ path ∈ paths, path.whole? ≠ none
  | .purge path => path.whole? ≠ none

/-- How an obstacle of the database engine is told. -/
def told (path : String) (m : Mishap) : Demand → Trouble
  | .read _ => .mishap m
  | .merge .. => .failure (.storeUnavailable path m.message)
  | .purge _ => .failure (.storeUnavailable path m.message)

/-- What is told of a disk without the tables. -/
def verdict (path : String) (disk : Disk) (d : Demand) : Trouble :=
  match disk.obstacle? with
  | some m => d.told path m
  | none => .failure (.schemaMissing path)

end Demand

theorem on_guarded_refused {act : Action α} {s' : Store}
    (h : act.on s = (.error (s.disk.refusal s.path), s')) (hpath : s'.path = s.path) {d : Demand}
    (hd : ∀ m, d.told s.path m = .failure (.storeUnavailable s.path m.message)) :
    (guarded act).on s = (.error (d.verdict s.path s.disk), s') := by
  unfold guarded
  rw [on_tryCatch, h]
  unfold Disk.refusal Demand.verdict
  cases hdisk : s.disk with
  | garbage => simp [Disk.obstacle?, isFromDatabase, on_bind, hpath, hd]
  | torn => simp [Disk.obstacle?, isFromDatabase, on_bind, hpath, hd]
  | noFile => simp [Disk.obstacle?, isFromDatabase, on_bind, hpath, hd]
  | _ => rfl

/-- Without tables a reading ends as the disk has it. -/
theorem on_reading_refused (h : s.disk.tables? = none) {r : Reading} (hr : (Demand.read r).IsProper)
    (hidle : ¬ (Demand.read r).IsIdle) : r.act.on s = (.error (s.disk.refusal s.path), s) := by
  cases r with
  | search query k =>
    have hblank : isBlank query = false := hr
    have hasks : ¬ (isBlank query || decide (k ≤ 0)) = true := by
      rw [hblank, Bool.false_or, decide_eq_true_eq]
      exact hidle
    have hon : (search query k).on s = (.error (s.disk.refusal s.path), s) := by
      unfold search
      rw [if_neg hasks]
      exact on_required h _
    simp only [Reading.act, on_bind, hon]
  | entities ids =>
    have hids : ¬ ids.isEmpty = true := by
      rw [List.isEmpty_iff]
      exact hr
    have hon : (getEntities ids).on s = (.error (s.disk.refusal s.path), s) := by
      unfold getEntities
      rw [if_neg hids]
      exact on_required h _
    simp only [Reading.act, on_bind, hon]
  | neighbors id limit =>
    have hon : (neighbors id limit).on s = (.error (s.disk.refusal s.path), s) := on_required h _
    simp only [Reading.act, on_bind, hon]
  | status => exact hr.elim

/-- A file that is not there is told as such whatever was asked. -/
theorem Demand.verdict_of_isThere {disk : Disk} (h : disk.isThere = false) (path : String) (d : Demand) :
    d.verdict path disk = disk.refusal path := by
  cases disk with
  | absent => rfl
  | noDirectory reason => rfl
  | _ => cases h

/-- Without tables a merge ends as the disk has it, and the caller is told of the store. -/
theorem on_merge_refused (h : s.disk.tables? = none) (hfree : s.isLocked = false)
    (htries : 0 ≤ s.settings.maxRetries) {records : List Record} (paths : List Writing)
    (hread : (Batch.ofRecords records).stopped = none) :
    ∃ s', (merge records paths).on s =
      (.error ((Demand.merge records paths).verdict s.path s.disk), s') := by
  -- reading the records writes the log only
  obtain ⟨s₁, hs₁, hdisk, hpath⟩ : ∃ s₁, s₁ = s.logging (batchLog records) ∧ s₁.disk = s.disk ∧
      s₁.path = s.path := ⟨_, rfl, rfl, rfl⟩
  have hdrafts : (draftsOf records).on s = (.ok (draftsIn records), s₁) := by
    rw [on_draftsOf, hread, hs₁]
  unfold merge
  rw [on_bind, hdrafts, ← hdisk, ← hpath]
  rw [← hdisk] at h
  cases hthere : s₁.disk.isThere with
  | false =>
    rw [Demand.verdict_of_isThere hthere]
    simp only [on_bind, on_requireFile_refused hthere]
    exact ⟨_, rfl⟩
  | true =>
    have hreplace : (replace (affected (draftsIn records) paths) (draftsIn records)).on s₁ =
        (.error (s₁.disk.refusal s₁.path), s₁) :=
      on_transaction_refused h hthere (hs₁ ▸ hfree) (hs₁ ▸ htries) Statement.apply _
    have hguarded := on_guarded_refused hreplace rfl (d := .merge records paths) fun _ => rfl
    simp only [on_bind, on_requireFile_there hthere, hguarded]
    exact ⟨_, rfl⟩

theorem on_purge_refused (h : s.disk.tables? = none) (hfree : s.isLocked = false)
    (htries : 0 ≤ s.settings.maxRetries) (path : Writing) :
    ∃ s', (purge path).on s = (.error ((Demand.purge path).verdict s.path s.disk), s') := by
  unfold purge
  cases hthere : s.disk.isThere with
  | false =>
    rw [Demand.verdict_of_isThere hthere]
    simp only [on_bind, on_requireFile_refused hthere]
    exact ⟨_, rfl⟩
  | true =>
    have hremove : (remove path).on s = (.error (s.disk.refusal s.path), s) :=
      on_transaction_refused h hthere hfree htries Statement.apply _
    have hguarded := on_guarded_refused hremove rfl (d := .purge path) fun _ => rfl
    simp only [on_bind, on_requireFile_there hthere, hguarded]
    exact ⟨_, rfl⟩

theorem on_act_refused (h : s.disk.tables? = none) (hfree : s.isLocked = false)
    (htries : 0 ≤ s.settings.maxRetries) {d : Demand} (hd : d.IsProper) (hidle : ¬ d.IsIdle) :
    ∃ s', d.act.on s = (.error (d.verdict s.path s.disk), s') := by
  cases d with
  | read r =>
    refine ⟨s, ?_⟩
    simp only [Demand.act, on_bind, on_reading_refused h hd hidle]
    rfl
  | merge records paths =>
    obtain ⟨s', hon⟩ := on_merge_refused h hfree htries paths hd
    exact ⟨s', by simp only [Demand.act, on_bind, hon]⟩
  | purge path =>
    obtain ⟨s', hon⟩ := on_purge_refused h hfree htries path
    exact ⟨s', by simp only [Demand.act, on_bind, hon]⟩

/-! ## What is asked of a store that was built -/

section

variable {t : Tables} {limit : Nat}

theorem Tables.searched_of_asks (t : Tables) {query : Writing} (hquery : isBlank query = false) {k : Int}
    (hk : ¬ k ≤ 0) :
    t.searched query k = query.encoded >>= fun text =>
      if isInRange k then .ok (t.found text k) else .error .integerTooLarge := by
  have hasks : ¬ (isBlank query || decide (k ≤ 0)) = true := by
    rw [hquery, Bool.false_or, decide_eq_true_eq]
    exact hk
  exact if_neg hasks

/-- Tables answer every reading whose values can be handed to them. -/
theorem Tables.answer_of_isTaken (t : Tables) {r : Reading} (hr : (Demand.read r).IsProper)
    (hidle : ¬ (Demand.read r).IsIdle) (htaken : (Demand.read r).IsTaken limit) (path : String) :
    ∃ a, t.answer path limit r = .ok a := by
  cases r with
  | search query k =>
    obtain ⟨hwhole, hrange⟩ := htaken
    cases query with
    | broken points => exact absurd rfl hwhole
    | whole text =>
      have hsearched : t.searched (.whole text) k = .ok (t.found text k) :=
        (t.searched_of_asks hr hidle).trans (if_pos hrange)
      exact ⟨_, by rw [answer, hsearched]; rfl⟩
  | entities ids =>
    obtain ⟨hlimit, hwhole⟩ := htaken
    have hown := Writing.map_wholes hwhole
    rw [← hown, List.length_map] at hlimit
    have hgathered := Tables.gathered_of_whole (t := t) hlimit
    rw [hown] at hgathered
    exact ⟨_, by rw [answer, hgathered]; rfl⟩
  | neighbors id most =>
    obtain ⟨hwhole, hrange⟩ := htaken
    cases id with
    | broken points => exact absurd rfl hwhole
    | whole id => exact ⟨_, by rw [answer, t.surroundings_of_inRange id hrange]; rfl⟩
  | status => exact hr.elim

/-- How what is asked ends that a store which was built does not take. -/
def IsUntaken (m : Mishap) : Prop :=
  IsUnheld m ∨ m = .tooManyVariables

/-- Tables refuse every reading with a value that cannot be handed to them. -/
theorem Tables.answer_of_not_isTaken (t : Tables) {r : Reading} (hr : (Demand.read r).IsProper)
    (hidle : ¬ (Demand.read r).IsIdle) (hnot : ¬ (Demand.read r).IsTaken limit) (path : String) :
    ∃ m, IsUntaken m ∧ t.answer path limit r = .error m := by
  cases r with
  | search query k =>
    cases query with
    | broken points =>
      refine ⟨.notEncodable points, .inl (.text points), ?_⟩
      rw [answer, t.searched_of_asks hr hidle]
      rfl
    | whole text =>
      have hrange : ¬ isInRange k = true := fun hrange => hnot ⟨Option.some_ne_none _, hrange⟩
      have hsearched : t.searched (.whole text) k = .error .integerTooLarge :=
        (t.searched_of_asks hr hidle).trans (if_neg hrange)
      exact ⟨.integerTooLarge, .inl .number, by rw [answer, hsearched]; rfl⟩
  | entities ids =>
    by_cases hlimit : ids.length ≤ limit
    · have hbroken : ∃ id ∈ ids, id.whole? = none := by
        by_contra hall
        exact hnot ⟨hlimit, fun id hmem hnone => hall ⟨id, hmem, hnone⟩⟩
      obtain ⟨points, hpoints⟩ := Tables.gathered_of_broken (t := t) hlimit hbroken
      exact ⟨.notEncodable points, .inl (.text points), by rw [answer, hpoints]; rfl⟩
    · refine ⟨.tooManyVariables, .inr rfl, ?_⟩
      rw [answer, Tables.gathered_of_many (Nat.lt_of_not_le hlimit)]
      rfl
  | neighbors id most =>
    cases id with
    | broken points => exact ⟨.notEncodable points, .inl (.text points), rfl⟩
    | whole id =>
      have hrange : isInRange most = false := by
        rw [← Bool.not_eq_true]
        exact fun hrange => hnot ⟨Option.some_ne_none _, hrange⟩
      refine ⟨.integerTooLarge, .inl .number, ?_⟩
      rw [answer, t.surroundings_of_not_inRange id hrange]
      rfl
  | status => exact hr.elim

theorem on_act_ok (ht : s.disk.tables? = some t) (hsound : t.IsSound) (hfree : s.isLocked = false)
    (htries : 0 ≤ s.settings.maxRetries) {d : Demand} (hd : d.IsProper) (hidle : ¬ d.IsIdle)
    (htaken : d.IsTaken s.variableLimit) : ∃ s', d.act.on s = (.ok ⟨⟩, s') := by
  cases d with
  | read r =>
    obtain ⟨events, hon⟩ := on_reading ht hsound r
    obtain ⟨a, ha⟩ := t.answer_of_isTaken hd hidle htaken s.path
    refine ⟨s.logging events, ?_⟩
    rw [ha] at hon
    simp only [Demand.act, on_bind, hon, Except.mapError, on_pure]
  | merge records paths =>
    obtain ⟨hheld, hpaths⟩ := htaken
    obtain ⟨n, s', hon⟩ :=
      on_change_ok htries hfree ht (c := .merge records paths) ⟨hd, hheld, hpaths⟩
    have hmerge : (merge records paths).on s = (.ok n, s') := hon
    exact ⟨s', by simp only [Demand.act, on_bind, hmerge, on_pure]⟩
  | purge path =>
    obtain ⟨n, s', hon⟩ := on_change_ok htries hfree ht (c := .purge path) htaken
    have hpurge : (purge path).on s = (.ok n, s') := hon
    exact ⟨s', by simp only [Demand.act, on_bind, hpurge, on_pure]⟩

/-- A demand with a value that cannot be handed to the tables ends in the error of that value. -/
theorem on_act_untaken (ht : s.disk.tables? = some t) (hsound : t.IsSound) (hfree : s.isLocked = false)
    (htries : 0 ≤ s.settings.maxRetries) {d : Demand} (hd : d.IsProper) (hidle : ¬ d.IsIdle)
    (hnot : ¬ d.IsTaken s.variableLimit) :
    ∃ m s', IsUntaken m ∧ d.act.on s = (.error (.mishap m), s') := by
  cases d with
  | read r =>
    obtain ⟨events, hon⟩ := on_reading ht hsound r
    obtain ⟨m, hm, ha⟩ := t.answer_of_not_isTaken hd hidle hnot s.path
    refine ⟨m, s.logging events, hm, ?_⟩
    rw [ha] at hon
    simp only [Demand.act, on_bind, hon, Except.mapError]
  | merge records paths =>
    have hstop : (∃ path ∈ paths, path.whole? = none) ∨ (draftsIn records).all storable = false := by
      by_contra hall
      rw [not_or, Bool.not_eq_false] at hall
      exact hnot ⟨hall.2, fun path hmem hnone => hall.1 ⟨path, hmem, hnone⟩⟩
    obtain ⟨m, s', hon, hm, -⟩ := on_merge_stopped htries hfree ht hd hstop
    exact ⟨m, s', .inl hm, by simp only [Demand.act, on_bind, hon]⟩
  | purge path =>
    cases path with
    | whole own => exact absurd nofun hnot
    | broken points =>
      refine ⟨.notEncodable points, s, .inl (.text points), ?_⟩
      simp only [Demand.act, on_bind, on_purge_stopped htries hfree ht points]

end

theorem on_act_idle {d : Demand} (hd : d.IsIdle) : d.act.on s = (.ok ⟨⟩, s) := by
  match d, hd with
  | .read (.search query k), hk =>
    have hasks : (isBlank query || decide (k ≤ 0)) = true := by
      rw [Bool.or_eq_true, decide_eq_true_eq]
      exact .inr hk
    have hon : (search query k).on s = (.ok [], s) := by
      unfold search
      rw [if_pos hasks]
      rfl
    simp only [Demand.act, Reading.act, on_bind, hon, on_pure]

/-! ## What an outcome tells -/

theorem Disk.obstacle?_eq_none {disk : Disk} (h : disk.tables? = none) :
    disk.obstacle? = none ↔
      disk.isThere = false ∨ ∃ db, disk = .database db ∧ db.tables? = none := by
  cases disk with
  | absent => exact ⟨fun _ => .inl rfl, fun _ => rfl⟩
  | noDirectory reason => exact ⟨fun _ => .inl rfl, fun _ => rfl⟩
  | noFile => simp [obstacle?, isThere]
  | garbage => simp [obstacle?, isThere]
  | torn => simp [obstacle?, isThere]
  | database db => exact ⟨fun _ => .inr ⟨db, rfl, h⟩, fun _ => rfl⟩

theorem Demand.told_ne (d : Demand) (path other : String) (m : Mishap) :
    d.told path m ≠ .failure (.schemaMissing other) := by
  cases d <;> nofun

/-- What is asked of a free store succeeds where all three tables are there and take it.  It ends in the
failure of a missing schema where there is no file, or a database that lacks a table.  A file that is no
sound database is told by a change as a failure of the store, and a reading lets the trouble of the
database engine through.  What the tables do not take ends in the trouble that it makes. -/
theorem typed_of_demand (hfree : s.isLocked = false) (htries : 0 ≤ s.settings.maxRetries)
    (hsound : ∀ t, s.disk.tables? = some t → t.IsSound) {d : Demand} (hd : d.IsProper) :
    ((d.act.on s).1 = .ok ⟨⟩ ↔
        d.IsIdle ∨ (∃ t, s.disk.tables? = some t) ∧ d.IsTaken s.variableLimit) ∧
      ((d.act.on s).1 = .error (.failure (.schemaMissing s.path)) ↔
        ¬ d.IsIdle ∧ (s.disk.isThere = false ∨ ∃ db, s.disk = .database db ∧ db.tables? = none)) ∧
      (∀ m, s.disk.obstacle? = some m → ¬ d.IsIdle → (d.act.on s).1 = .error (d.told s.path m)) ∧
      ((∃ t, s.disk.tables? = some t) → ¬ d.IsIdle → ¬ d.IsTaken s.variableLimit →
        ∃ m, IsUntaken m ∧ (d.act.on s).1 = .error (.mishap m)) := by
  by_cases hidle : d.IsIdle
  · -- the file is not looked at, so that nothing can be wrong with it
    simp [on_act_idle hidle, hidle]
  cases ht : s.disk.tables? with
  | some t =>
    obtain ⟨db, hdisk, hdb⟩ := tables?_database ht
    by_cases htaken : d.IsTaken s.variableLimit
    · obtain ⟨s', hon⟩ := on_act_ok ht (hsound t ht) hfree htries hd hidle htaken
      simp [hon, hdisk, hdb, Disk.isThere, Disk.obstacle?, htaken]
    · obtain ⟨m, s', hm, hon⟩ := on_act_untaken ht (hsound t ht) hfree htries hd hidle htaken
      refine ⟨by simp [hon, hidle, htaken], by simp [hon, hdisk, hdb, Disk.isThere],
        by simp [hdisk, Disk.obstacle?], fun _ _ _ => ⟨m, hm, congrArg Prod.fst hon⟩⟩
  | none =>
    obtain ⟨s', hon⟩ := on_act_refused ht hfree htries hd hidle
    rw [hon, ← Disk.obstacle?_eq_none ht]
    unfold Demand.verdict
    cases hm : s.disk.obstacle? with
    | none => simp [hidle]
    | some m =>
      -- a missing schema is never told of a file that is no sound database
      have hne := d.told_ne s.path s.path m
      simp [hidle, hne]

def overwritten : Store :=
  { path := "index.db", disk := .garbage }

theorem typed_of_overwritten :
    let t := Tables.insert {} [shelved]
    ((Demand.act (.read (.search (.whole "foo") 5))).on
        { path := "index.db", disk := .database (.ofTables t) }).1 = .ok ⟨⟩ ∧
      ((Demand.act (.purge (.whole "a.ex"))).on
        { path := "index.db", disk := .database { Database.ofTables t with edges := none } }).1 =
          .error (.failure (.schemaMissing "index.db")) ∧
      ((Demand.act (.merge [.entity shelved] [])).on overwritten).1 =
        .error (.failure (.storeUnavailable "index.db" Mishap.notADatabase.message)) := by
  intro t
  have htries : 0 ≤ ({} : Settings.Database).maxRetries := by decide
  have hsound : t.IsSound := by decide
  refine ⟨?_, ?_, ?_⟩
  · have hbuilt := typed_of_demand (s := { path := "index.db", disk := .database (.ofTables t) })
      rfl htries (fun u hu => Option.some.inj hu ▸ hsound) (d := .read (.search (.whole "foo") 5))
      (by decide : isBlank (.whole "foo") = false)
    exact hbuilt.1.mpr (.inr ⟨⟨t, rfl⟩, nofun, by decide⟩)
  · have hpartial := typed_of_demand
      (s := { path := "index.db", disk := .database { Database.ofTables t with edges := none } })
      rfl htries nofun (d := .purge (.whole "a.ex")) trivial
    exact hpartial.2.1.mpr ⟨id, .inr ⟨_, rfl, rfl⟩⟩
  · have hgarbage := typed_of_demand (s := overwritten) rfl htries nofun
      (d := .merge [.entity shelved] []) rfl
    exact hgarbage.2.2.1 .notADatabase rfl id

/-- The readings let through what the database engine says of a file that is no database. -/
theorem untyped_of_overwritten :
    (∃ s', (Store.search (.whole "foo") 10).on overwritten = (.error (.mishap .notADatabase), s')) ∧
      (∃ s', (getEntities [.whole "x"]).on overwritten = (.error (.mishap .notADatabase), s')) ∧
      ∃ s', (Store.neighbors (.whole "x") 5).on overwritten = (.error (.mishap .notADatabase), s') :=
  ⟨⟨_, rfl⟩, ⟨_, rfl⟩, ⟨_, rfl⟩⟩

end CodeIndex.Store
