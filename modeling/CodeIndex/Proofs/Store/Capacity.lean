import CodeIndex.Proofs.Store.Success

/-!
# What the tables have no room for

Numbers and texts go into the tables as they are, and the check of a record lets through larger numbers than
a column takes, and texts that no encoding has.  Whether a batch of checked records is stored is told by the
drafts that it merges to: if the tables can hold all of them the batch is stored, and if there is one that
they cannot the change is stopped and nothing of the batch is.
-/

namespace CodeIndex.Store

/-! ## What can be held -/

/-- A draft whose numbers a column takes and whose texts can be encoded. -/
structure IsHoldable (d : Draft) : Prop where
  texts : ∀ w ∈ d.texts, w.whole? ≠ none
  arity : d.arity < integerBound
  endLine : d.endLine < integerBound

instance (d : Draft) : Decidable (IsHoldable d) :=
  decidable_of_iff ((∀ w ∈ d.texts, w.whole? ≠ none) ∧ d.arity < integerBound ∧ d.endLine < integerBound)
    ⟨fun ⟨htexts, harity, hend⟩ => ⟨htexts, harity, hend⟩, fun h => ⟨h.texts, h.arity, h.endLine⟩⟩

theorem isSome_whole?_iff {d : Draft} :
    (Entity.whole? d).isSome = true ↔ ∀ w ∈ d.texts, w.whole? ≠ none := by
  have hall : (Entity.whole? d).isSome = d.texts.all (·.whole?.isSome) := by
    unfold Entity.whole?
    split
    · rename_i h
      exact h.symm
    · rename_i h
      exact (Bool.eq_false_iff.mpr h).symm
  rw [hall, List.all_eq_true]
  simp only [Option.isSome_iff_ne_none]

/-- The lines of a checked draft are in order, so that its last one tells of both. -/
theorem storable_iff_isHoldable {d : Draft} (h : d.IsNormal) : storable d = true ↔ IsHoldable d := by
  have hlines := h.lines
  rw [storable, Bool.and_eq_true, isSome_whole?_iff, fits, Bool.and_eq_true, Bool.and_eq_true,
    decide_eq_true_eq, decide_eq_true_eq, decide_eq_true_eq]
  constructor
  · rintro ⟨htexts, ⟨harity, -⟩, hend⟩
    exact ⟨htexts, harity, hend⟩
  · rintro ⟨htexts, harity, hend⟩
    exact ⟨htexts, ⟨harity, Nat.lt_of_le_of_lt hlines hend⟩, hend⟩

/-- A joined clause has no text that neither of its parts has. -/
theorem mem_texts_join {a b : Draft} {w : Writing} (h : w ∈ (Entity.join a b).texts) :
    w ∈ a.texts ∨ w ∈ b.texts := by
  have hmem : ∀ {d : Draft} {references : List Writing},
      w ∈ Entity.texts { d with references } → w ∈ d.texts ∨ w ∈ references := by
    intro d references h
    rw [Entity.texts, List.mem_append] at h
    exact h.imp_left (List.mem_append_left _)
  have hreferences : ∀ {d : Draft}, w ∈ d.references → w ∈ d.texts :=
    fun h => List.mem_append_right _ h
  have hparts := hmem (d := if a.startLine ≤ b.startLine then a else b) h
  rcases hparts with hpart | hboth
  · split at hpart
    · exact .inl hpart
    · exact .inr hpart
  · change w ∈ Text.distinct (a.references ++ b.references) at hboth
    rw [Text.mem_distinct, List.mem_append] at hboth
    exact hboth.imp hreferences hreferences

/-- Clauses that can be held merge to drafts that can. -/
theorem isHoldable_of_mem_mergeClauses {drafts : List Draft} (h : ∀ d ∈ drafts, IsHoldable d) :
    ∀ m ∈ mergeClauses drafts, IsHoldable m := by
  refine forall_mem_mergeClauses ?_ h
  intro a b ha hb
  refine ⟨fun w hw => ?_, ?_, Nat.max_lt.mpr ⟨ha.endLine, hb.endLine⟩⟩
  · exact (mem_texts_join hw).elim (ha.texts w) (hb.texts w)
  · change (if a.startLine ≤ b.startLine then a else b).arity < integerBound
    split
    · exact ha.arity
    · exact hb.arity

theorem length_mergeClauses {τ : Type} [DecidableEq τ] (entities : List (Entity τ)) :
    (mergeClauses entities).length = (entities.map Entity.id).eraseDups.length := by
  rw [← Text.distinct_eq_eraseDups, ← map_id_mergeClauses, List.length_map]

/-! ## Stopped at a number or a text -/

section Stopped

variable {s : Store} {t : Tables} {drafts : List Draft}

theorem on_transaction_stopped {α : Type} {engine : Engine} {body : Action α} {s' : Store} {e : Trouble}
    (hs : s.IsWritable) (h : (committed engine body).on s = (.error e, s')) :
    (transaction engine body).on s = (.error e, { s' with disk := s.disk }) := by
  unfold transaction
  simp only [on_bind, on_acquire_of_isWritable hs, on_get, on_tryCatch, h, on_modify, on_throw]

/-- What does not come from the database is not put in other words. -/
theorem on_guarded_unheld {α : Type} {act : Action α} {s' : Store} {m : Mishap} (hm : IsUnheld m)
    (h : act.on s = (.error (.mishap m), s')) : (guarded act).on s = (.error (.mishap m), s') := by
  have hown : isFromDatabase m = false := by cases hm <;> rfl
  unfold guarded
  rw [on_tryCatch, h]
  simp only [hown]
  rfl

theorem on_replace_stopped (hw : s.IsWritable) (ht : s.disk.tables? = some t) {paths : List Writing}
    (h : (∃ path ∈ paths, path.whole? = none) ∨ drafts.all storable = false) :
    ∃ m s', (replace paths drafts).on s = (.error (.mishap m), s') ∧ IsUnheld m ∧
      s'.disk = s.disk := by
  obtain ⟨d, hd, hdt⟩ := tables?_database ht
  rw [Database.eq_ofTables hdt] at hd
  obtain ⟨m, hm, hstop⟩ := on_exchange_error h
  obtain ⟨d', herr⟩ := hstop s t
  rw [← eq_holding hd] at herr
  exact ⟨m, _, on_transaction_stopped hw (on_committed_error herr), hm, rfl⟩

theorem on_renew_stopped (hw : s.IsWritable) (ht : s.disk.tables? = some t)
    (hheld : drafts.all storable = false) :
    ∃ m s', (renew drafts).on s = (.error (.mishap m), s') ∧ IsUnheld m ∧ s'.disk = s.disk := by
  obtain ⟨d, hd, -⟩ := tables?_database ht
  have hcreate : create.on s = (.ok ⟨⟩, s) := by
    unfold create
    simp only [on_bind, on_get, hd, on_pure]
  obtain ⟨m, hm, hstop⟩ := on_refill_error hheld
  obtain ⟨d', herr⟩ := hstop s d
  rw [← eq_holding hd] at herr
  have hrewrite : (rewrite drafts).on s =
      (.error (.mishap m), { s.holding d' with disk := s.disk }) := by
    unfold rewrite
    simp only [on_bind, hcreate, on_transaction_stopped hw (on_committed_error herr)]
  -- the file is a database, and is not discarded
  have hsound : ¬ SeemsCorrupt drafts Statement.apply s := by
    intro hcorrupt
    rw [eq_garbage_of_seemsCorrupt hcorrupt] at hd
    cases hd
  exact ⟨m, _, on_renew_error hrewrite hsound, hm, rfl⟩

/-- Reading a batch has only written the log. -/
theorem exists_on_draftsOf (htries : 0 ≤ s.settings.maxRetries) (hl : s.isLocked = false)
    (ht : s.disk.tables? = some t) {records : List Record}
    (hread : (Batch.ofRecords records).stopped = none) :
    ∃ s₁, (draftsOf records).on s = (.ok (draftsIn records), s₁) ∧ s₁.IsWritable ∧
      s₁.disk = s.disk := by
  obtain ⟨d, hd, -⟩ := tables?_database ht
  refine ⟨s.logging (batchLog records), ?_, isWritable_of_database htries hl hd, rfl⟩
  rw [on_draftsOf, hread]

theorem on_rebuild_stopped (htries : 0 ≤ s.settings.maxRetries) (hl : s.isLocked = false)
    (ht : s.disk.tables? = some t) {records : List Record}
    (hread : (Batch.ofRecords records).stopped = none)
    (hheld : (draftsIn records).all storable = false) :
    ∃ m s', (rebuild records).on s = (.error (.mishap m), s') ∧ IsUnheld m ∧ s'.disk = s.disk := by
  obtain ⟨s₁, hdrafts, hw, hdisk⟩ := exists_on_draftsOf htries hl ht hread
  rw [← hdisk] at ht ⊢
  obtain ⟨m, s', hon, hm, hkept⟩ := on_renew_stopped hw ht hheld
  refine ⟨m, s', ?_, hm, hkept⟩
  unfold rebuild
  simp only [on_bind, hdrafts, on_guarded_unheld hm hon]

theorem on_merge_stopped (htries : 0 ≤ s.settings.maxRetries) (hl : s.isLocked = false)
    (ht : s.disk.tables? = some t) {records : List Record} {paths : List Writing}
    (hread : (Batch.ofRecords records).stopped = none)
    (h : (∃ path ∈ paths, path.whole? = none) ∨ (draftsIn records).all storable = false) :
    ∃ m s', (merge records paths).on s = (.error (.mishap m), s') ∧ IsUnheld m ∧
      s'.disk = s.disk := by
  obtain ⟨s₁, hdrafts, hw, hdisk⟩ := exists_on_draftsOf htries hl ht hread
  rw [← hdisk] at ht ⊢
  have haffected : (∃ path ∈ affected (draftsIn records) paths, path.whole? = none) ∨
      (draftsIn records).all storable = false := by
    refine h.imp_left ?_
    rintro ⟨path, hmem, hnone⟩
    refine ⟨path, ?_, hnone⟩
    rw [affected, Text.mem_sortedBy, Text.mem_distinct]
    exact List.mem_append_right _ hmem
  obtain ⟨m, s', hon, hm, hkept⟩ := on_replace_stopped hw ht haffected
  refine ⟨m, s', ?_, hm, hkept⟩
  unfold merge
  simp only [on_bind, hdrafts, on_requireFile_ok ht, on_guarded_unheld hm hon]

theorem on_purge_stopped (htries : 0 ≤ s.settings.maxRetries) (hl : s.isLocked = false)
    (ht : s.disk.tables? = some t) (points : List Nat) :
    (purge (.broken points)).on s = (.error (.mishap (.notEncodable points)), s) := by
  obtain ⟨d, hd, hdt⟩ := tables?_database ht
  have hw := isWritable_of_database htries hl hd
  rw [Database.eq_ofTables hdt] at hd
  have hwithdraw := on_withdraw_broken points s t
  rw [← eq_holding hd] at hwithdraw
  have hremove : (remove (.broken points)).on s = _ :=
    on_transaction_stopped hw (on_committed_error hwithdraw)
  unfold purge
  simp only [on_bind, on_requireFile_ok ht, on_guarded_unheld (.text points) hremove]

end Stopped

/-! ## Storing a batch -/

/-- The changes that store a batch of drafts, and the paths that they name. -/
inductive Stores (drafts : List Draft) : List Writing → Change → Prop where
  | rebuild : Stores drafts [] (.rebuild (drafts.map .draft))
  | merge (paths : List Writing) : Stores drafts paths (.merge (drafts.map .draft) paths)

variable {s : Store} {t : Tables} {drafts : List Draft} {paths : List Writing} {c : Change}

theorem Stores.on_change_ok (hc : Stores drafts paths c) (htries : 0 ≤ s.settings.maxRetries)
    (hl : s.isLocked = false) (ht : s.disk.tables? = some t)
    (hheld : (mergeClauses drafts).all storable = true) (hpaths : ∀ path ∈ paths, path.whole? ≠ none) :
    ∃ s', (change c).on s = (.ok (mergeClauses drafts).length, s') ∧
      s'.disk.tables? = some (applied t c) := by
  rw [← draftsIn_drafts] at hheld ⊢
  rw [length_draftsIn hheld]
  cases hc with
  | rebuild =>
    obtain ⟨d, hd, -⟩ := tables?_database ht
    obtain ⟨s', hon, hwrote⟩ :=
      on_rebuild_ok ⟨htries, .inr (.inr ⟨d, hd⟩)⟩ hl (Batch.stopped_drafts drafts) hheld
    exact ⟨s', hon, hwrote.tables?⟩
  | merge =>
    obtain ⟨s', hon, hwrote⟩ :=
      on_merge_ok htries hl ht (Writing.wholes paths) (Batch.stopped_drafts drafts) hheld
    rw [Writing.map_wholes hpaths] at hon
    exact ⟨s', hon, hwrote.tables?⟩

theorem Stores.on_change_stopped (hc : Stores drafts paths c) (htries : 0 ≤ s.settings.maxRetries)
    (hl : s.isLocked = false) (ht : s.disk.tables? = some t)
    (h : (∃ path ∈ paths, path.whole? = none) ∨ (mergeClauses drafts).all storable = false) :
    ∃ m s', (change c).on s = (.error (.mishap m), s') ∧ IsUnheld m ∧ s'.disk = s.disk := by
  rw [← draftsIn_drafts] at h
  cases hc with
  | rebuild =>
    exact on_rebuild_stopped htries hl ht (Batch.stopped_drafts drafts) (h.resolve_left nofun)
  | merge => exact on_merge_stopped htries hl ht (Batch.stopped_drafts drafts) h

/-- A rebuild or a merge with checked records, on a free store that was built, stores one entity for each
identity if no number of a merged draft is too large and each of its texts can be encoded, as when all of
the batch is so.  Otherwise it is stopped, and the store stays as it is. -/
theorem on_change_stores (htries : 0 ≤ s.settings.maxRetries) (hl : s.isLocked = false)
    (ht : s.disk.tables? = some t) (h : ∀ d ∈ drafts, ∃ v, Draft.ofValue v = .ok d)
    (hc : Stores drafts paths c) :
    ((∀ m ∈ mergeClauses drafts, IsHoldable m) → (∀ path ∈ paths, path.whole? ≠ none) →
        ∃ s', (change c).on s = (.ok (drafts.map Entity.id).eraseDups.length, s') ∧
          s'.disk.tables? = some (applied t c)) ∧
      ((∀ d ∈ drafts, IsHoldable d) → ∀ m ∈ mergeClauses drafts, IsHoldable m) ∧
      (((∃ m ∈ mergeClauses drafts, ¬ IsHoldable m) ∨ ∃ path ∈ paths, path.whole? = none) →
        ∃ m s', (change c).on s = (.error (.mishap m), s') ∧ IsUnheld m ∧ s'.disk = s.disk) := by
  have hnormal : ∀ m ∈ mergeClauses drafts, Draft.IsNormal m := by
    refine Draft.IsNormal.mergeClauses fun d hd => ?_
    obtain ⟨v, hv⟩ := h d hd
    exact Draft.isNormal_of_ofValue hv
  refine ⟨fun hheld hpaths => ?_, isHoldable_of_mem_mergeClauses, fun hstop => ?_⟩
  · have hall : (mergeClauses drafts).all storable = true :=
      List.all_eq_true.mpr fun m hm => (storable_iff_isHoldable (hnormal m hm)).mpr (hheld m hm)
    rw [← length_mergeClauses]
    exact hc.on_change_ok htries hl ht hall hpaths
  · refine hc.on_change_stopped htries hl ht (hstop.symm.imp_right ?_)
    rintro ⟨m, hm, hnot⟩
    exact List.all_eq_false.mpr ⟨m, hm, fun hheld =>
      hnot ((storable_iff_isHoldable (hnormal m hm)).mp hheld)⟩

/-- Two drafts, the second with some name and arity. -/
def counted (name : Writing) (arity : Nat) : List Draft :=
  [{ id := "x", container := "A", name := "f", arity := 1, path := "a.ex", startLine := 1, endLine := 2
     lexicalText := "", references := [.whole "A.g/0"] },
   { id := "y", container := "A", name, arity, path := "b.ex", startLine := 3, endLine := 3
     lexicalText := "" }]

/-- A store that was built, with nothing in its tables. -/
def emptied : Store :=
  { path := "index.db", disk := .database (.ofTables {}) }

theorem ofValue_of_mem_counted (name : Writing) (arity : Nat) :
    ∀ d ∈ counted name arity, ∃ v, Draft.ofValue v = .ok d := by
  intro d hd
  have hnormal : d.IsNormal := by
    rcases List.mem_pair.mp hd with rfl | rfl
    · exact ⟨by simp, ⟨"a.ex", rfl, by decide⟩, by simp, by simp⟩
    · exact ⟨by simp, ⟨"b.ex", rfl, by decide⟩, by simp, by simp⟩
  exact ⟨d.toValue, Draft.ofValue_toValue hnormal⟩

theorem on_change_stores_counted :
    (∃ s', (change (.merge ((counted "g" 2).map .draft) [.whole "c.ex"])).on emptied = (.ok 2, s')) ∧
      (∃ m s', (change (.rebuild ((counted "g" integerBound).map .draft))).on emptied =
        (.error (.mishap m), s') ∧ IsUnheld m ∧ s'.disk = emptied.disk) := by
  have htries : 0 ≤ emptied.settings.maxRetries := by decide
  constructor
  · obtain ⟨hstored, hheld, -⟩ := on_change_stores htries rfl rfl (ofValue_of_mem_counted "g" 2)
      (.merge [.whole "c.ex"])
    obtain ⟨s', hon, -⟩ := hstored (hheld (by decide)) (by decide)
    exact ⟨s', hon⟩
  · obtain ⟨-, -, hstopped⟩ := on_change_stores htries rfl rfl
      (ofValue_of_mem_counted "g" integerBound) .rebuild
    exact hstopped (.inl ⟨_, List.mem_cons_of_mem _ List.mem_cons_self, by decide⟩)

/-- Batches that were checked, one with a number and one with a text that no change can store. -/
theorem stopped_of_counted :
    ((∀ d ∈ counted "g" integerBound, ∃ v, Draft.ofValue v = .ok d) ∧
      ∀ paths c, Stores (counted "g" integerBound) paths c →
        ∃ m s', (change c).on emptied = (.error (.mishap m), s')) ∧
    (∀ d ∈ counted (.broken [0xD800]) 1, ∃ v, Draft.ofValue v = .ok d) ∧
      ∀ paths c, Stores (counted (.broken [0xD800]) 1) paths c →
        ∃ m s', (change c).on emptied = (.error (.mishap m), s') := by
  have hstopped : ∀ batch : List Draft, (mergeClauses batch).all storable = false →
      ∀ paths c, Stores batch paths c → ∃ m s', (change c).on emptied = (.error (.mishap m), s') := by
    intro batch hnot paths c hc
    obtain ⟨m, s', hon, -⟩ := hc.on_change_stopped (s := emptied) (by decide) rfl rfl (.inr hnot)
    exact ⟨m, s', hon⟩
  exact ⟨⟨ofValue_of_mem_counted "g" integerBound, hstopped _ (by decide)⟩,
    ofValue_of_mem_counted (.broken [0xD800]) 1, hstopped _ (by decide)⟩

end CodeIndex.Store
