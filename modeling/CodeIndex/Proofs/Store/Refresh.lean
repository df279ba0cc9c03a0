import CodeIndex.Proofs.Record.Batch
import CodeIndex.Proofs.Store.Files
import CodeIndex.Proofs.Store.Success
import Mathlib.Data.Finset.Basic

/-!
# Merging what changed is as good as a full rebuild

A project goes from one listing of its files to another.  The store is built from the first, and then the
changed files are merged, batch by batch.  A batch may take an identity away from a file that still waits
for its own batch; what stays is that a file which is up to date stays so, since the new listing gives
each identity to one file only.  When every changed file had its turn, all are up to date.
-/

namespace CodeIndex.Store

/-- The records of each file, and the files that have any, in the order of a full scan. -/
structure Listing where
  records : String → List Record
  paths : List String
  nodup : paths.Nodup
  complete : ∀ path, records path ≠ [] → path ∈ paths

namespace Listing

def all (l : Listing) : List Record :=
  l.paths.flatMap l.records

def files (l : Listing) : Files :=
  fun path => (Batch.ofRecords (l.records path)).entities

/-- No record is refused, every record carries the path of its file, no identity occurs in two files, all
texts can be encoded, and all numbers fit. -/
structure IsSound (l : Listing) : Prop where
  readable : ∀ path, (Batch.ofRecords (l.records path)).stopped = none
  whole : ∀ path, (Batch.ofRecords (l.records path)).drafts = (l.files path).map Entity.draft
  laidOut : l.files.IsLaidOut
  fit : ∀ path, ∀ e ∈ l.files path, fits e = true

end Listing

/-! ## Reading a listing -/

theorem filter_path_flatMap {files : Files} (hplaced : ∀ path, ∀ e ∈ files path, e.path = path)
    (paths : List String) (path : String) :
    (paths.flatMap files).filter (·.path == path) = (paths.filter (· == path)).flatMap files := by
  induction paths with
  | nil => rfl
  | cons p rest ih =>
    rw [List.flatMap_cons, List.filter_append, ih]
    by_cases hp : p = path
    · subst hp
      rw [List.filter_cons_of_pos (by simp), List.flatMap_cons, List.filter_eq_self.mpr]
      intro e he
      exact beq_iff_eq.mpr (hplaced p e he)
    · rw [List.filter_cons_of_neg (by simpa using hp), List.filter_eq_nil_iff.mpr, List.nil_append]
      intro e he h
      rw [beq_iff_eq, hplaced p e he] at h
      exact hp h

/-- Where each file is read once, what was read of one file is all that it has. -/
theorem filter_path_of_nodup {files : Files} (hplaced : ∀ path, ∀ e ∈ files path, e.path = path)
    {paths : List String} (hn : paths.Nodup) (path : String) :
    (paths.flatMap files).filter (·.path == path) = if path ∈ paths then files path else [] := by
  rw [filter_path_flatMap hplaced, List.filter_beq]
  by_cases hp : path ∈ paths
  · rw [if_pos hp, List.count_eq_one_of_mem hn hp, List.replicate_one, List.flatMap_singleton]
  · rw [if_neg hp, List.count_eq_zero_of_not_mem hp]
    rfl

namespace Listing

variable {l : Listing}

theorem IsSound.stopped (h : l.IsSound) (paths : List String) :
    (Batch.ofRecords (paths.flatMap l.records)).stopped = none :=
  (Batch.ofRecords_flatMap fun path _ => h.readable path).1

theorem IsSound.drafts (h : l.IsSound) (paths : List String) :
    (Batch.ofRecords (paths.flatMap l.records)).drafts = (paths.flatMap l.files).map Entity.draft := by
  rw [(Batch.ofRecords_flatMap fun path _ => h.readable path).2, List.map_flatMap]
  exact List.flatMap_congr fun path _ => h.whole path

theorem IsSound.entities (h : l.IsSound) (paths : List String) :
    (Batch.ofRecords (paths.flatMap l.records)).entities = paths.flatMap l.files := by
  rw [Batch.entities, h.drafts, filterMap_whole?_draft]

theorem IsSound.whole_all (h : l.IsSound) (paths : List String) :
    (Batch.ofRecords (paths.flatMap l.records)).drafts =
      (Batch.ofRecords (paths.flatMap l.records)).entities.map Entity.draft := by
  rw [h.entities, h.drafts]

theorem IsSound.reads (h : l.IsSound) {paths : List String} (hn : paths.Nodup) :
    Reads (paths.flatMap l.records) l.files {p | p ∈ paths} where
  whole := h.whole_all paths
  found path hp := by
    rw [h.entities, filter_path_of_nodup h.laidOut.placed hn, if_pos (show path ∈ paths from hp)]
  within e he := by
    rw [h.entities, List.mem_flatMap] at he
    obtain ⟨p, hp, he⟩ := he
    rw [h.laidOut.placed p e he]
    exact hp

theorem IsSound.reads_all (h : l.IsSound) : Reads l.all l.files Set.univ where
  whole := h.whole_all l.paths
  found path _ := by
    rw [all, h.entities, filter_path_of_nodup h.laidOut.placed l.nodup]
    split
    · rfl
    · rename_i hp
      have hnone : l.records path = [] := by
        by_contra hne
        exact hp (l.complete path hne)
      rw [files, hnone]
      rfl
  within _ _ := Set.mem_univ _

theorem fits_join (a b : Entity) (ha : fits a = true) (hb : fits b = true) :
    fits (a.join b) = true := by
  simp only [fits, Bool.and_eq_true, decide_eq_true_eq] at ha hb ⊢
  unfold Entity.join
  split
  · exact ⟨⟨ha.1.1, by simp only; omega⟩, by simp only; omega⟩
  · exact ⟨⟨hb.1.1, by simp only; omega⟩, by simp only; omega⟩

theorem IsSound.all_storable (h : l.IsSound) (paths : List String) :
    (draftsIn (paths.flatMap l.records)).all storable = true := by
  rw [draftsIn_of_drafts (h.drafts paths), all_storable_draft, List.all_eq_true]
  refine forall_mem_mergeClauses fits_join fun e he => ?_
  obtain ⟨p, -, he⟩ := List.mem_flatMap.mp he
  exact h.fit p e he

end Listing

/-! ## Refreshing -/

def buildCall (l : Listing) : Call :=
  { asked := .rebuild l.all }

def mergeCall (l : Listing) (batch : List String) : Call :=
  { asked := .merge (batch.flatMap l.records) (batch.map .whole) }

theorem after_buildCall {s : Store} (hs : s.IsBuildable) {l : Listing} (h : l.IsSound) :
    Wrote { s with isLocked := false } (Tables.insert {} (entitiesIn l.all))
      ((buildCall l).after s) := by
  obtain ⟨s', hon, hw⟩ := on_rebuild_ok (s := { s with isLocked := false }) ⟨hs.tries, hs.place⟩ rfl
    (h.stopped l.paths) (h.all_storable l.paths)
  rw [Call.after, buildCall]
  change Wrote _ _ ((rebuild l.all).on { s with isLocked := false }).2
  rw [Listing.all, hon]
  exact hw

theorem after_mergeCall {s : Store} (htries : 0 ≤ s.settings.maxRetries) {t : Tables}
    (ht : s.disk.tables? = some t) {l : Listing} (h : l.IsSound) (batch : List String) :
    Wrote { s with isLocked := false }
      (t.merge (affected (entitiesIn (batch.flatMap l.records)) batch)
        (entitiesIn (batch.flatMap l.records)))
      ((mergeCall l batch).after s) := by
  obtain ⟨s', hon, hw⟩ := on_merge_ok (s := { s with isLocked := false }) htries rfl ht batch
    (h.stopped batch) (h.all_storable batch)
  rw [Call.after, mergeCall]
  change Wrote _ _ ((merge (batch.flatMap l.records) (batch.map .whole)).on
    { s with isLocked := false }).2
  rw [hon]
  exact hw

/-- Merging batches of files: what is in a batch or was up to date is up to date at the end. -/
theorem stored_run_mergeCall {l : Listing} (h : l.IsSound) {batches : List (List String)}
    (hn : ∀ batch ∈ batches, batch.Nodup) {s : Store} (htries : 0 ≤ s.settings.maxRetries)
    {t : Tables} (ht : s.disk.tables? = some t) (hlock : Lockstep t) :
    ∃ u, (run s (batches.map (mergeCall l))).disk.tables? = some u ∧ Lockstep u ∧
      ∀ path, (∃ batch ∈ batches, path ∈ batch) ∨ t.stored path = l.files.shown path →
        u.stored path = l.files.shown path := by
  induction batches generalizing s t with
  | nil => exact ⟨t, ht, hlock, fun path hp => hp.resolve_left (by simp)⟩
  | cons batch rest ih =>
    rw [List.forall_mem_cons] at hn
    have hw := after_mergeCall htries ht h batch
    have htries' : 0 ≤ ((mergeCall l batch).after s).settings.maxRetries := by
      obtain ⟨log, hw⟩ := hw
      rw [hw]
      exact htries
    have hlock' := (hlock.purgeAll (affected (entitiesIn (batch.flatMap l.records)) batch)).insert
      (nodup_map_id_entitiesIn (batch.flatMap l.records))
    obtain ⟨u, hu, hulock, hstored⟩ := ih hn.2 htries' hw.tables? hlock'
    refine ⟨u, hu, hulock, fun path hp => hstored path ?_⟩
    rw [List.exists_mem_cons_iff, or_assoc, or_left_comm] at hp
    exact hp.imp_right fun hp => stored_merge (h.reads hn.1) h.laidOut hlock hp

/-- Building the store from one listing and then merging, in batches and in any order, the files that the
next listing changed leaves what building it from the next listing does: the same entities, the same
full-text rows, and the same references for each identity. -/
theorem refresh_eq_rebuild {s s' : Store} (hs : s.IsBuildable) (hs' : s'.IsBuildable)
    {old new : Listing} (hold : old.IsSound) (hnew : new.IsSound) {changed : Finset String}
    (hchanged : ∀ path, old.records path ≠ new.records path → path ∈ changed)
    {batches : List (List String)} (hn : ∀ batch ∈ batches, batch.Nodup)
    (hsplit : ∀ path, path ∈ changed ↔ ∃ batch ∈ batches, path ∈ batch) :
    ∃ t u, (run s (buildCall old :: batches.map (mergeCall new))).disk.tables? = some t ∧
      (run s' [buildCall new]).disk.tables? = some u ∧
      t.entities.Perm u.entities ∧ t.texts.Perm u.texts ∧
      ∀ id, t.referencesOf id = u.referencesOf id := by
  have hbuilt := after_buildCall hs hold
  have htries : 0 ≤ ((buildCall old).after s).settings.maxRetries := by
    obtain ⟨log, hw⟩ := hbuilt
    rw [hw]
    exact hs.tries
  have hlock₀ : ∀ l : Listing, Lockstep (Tables.insert {} (entitiesIn l.all)) := fun l =>
    Lockstep.empty.insert (nodup_map_id_entitiesIn l.all)
  obtain ⟨t, ht, hlock, hstored⟩ :=
    stored_run_mergeCall hnew hn htries hbuilt.tables? (hlock₀ old)
  refine ⟨t, _, ht, (after_buildCall hs' hnew).tables?,
    Tables.perm_of_stored hlock (hlock₀ new) fun path => ?_⟩
  rw [stored_rebuild hnew.reads_all hnew.laidOut]
  apply hstored
  by_cases hp : old.records path = new.records path
  · -- a file that did not change was up to date from the start
    have hsame : old.files path = new.files path := by
      rw [Listing.files, Listing.files, hp]
    exact .inr ((stored_rebuild hold.reads_all hold.laidOut path).trans (Files.shown_congr hsame))
  · exact .inl ((hsplit path).mp (hchanged path hp))

/-! ## Listings of entities -/

def Listing.ofEntities (entities : List Entity) : Listing where
  records path := (entities.filter (·.path == path)).map .entity
  paths := Text.distinct (entities.map Entity.path)
  nodup := Text.nodup_distinct _
  complete path h := by
    rw [Text.mem_distinct, List.mem_map]
    rw [Ne, List.map_eq_nil_iff, List.filter_eq_nil_iff] at h
    push Not at h
    obtain ⟨e, he, hp⟩ := h
    exact ⟨e, he, beq_iff_eq.mp hp⟩

theorem Listing.files_ofEntities (entities : List Entity) :
    (ofEntities entities).files = Files.ofEntities entities :=
  funext fun _ => by
    rw [files, Batch.entities, ofEntities, Batch.drafts_entities, filterMap_whole?_draft]
    rfl

theorem Listing.isSound_ofEntities (entities : List Entity) (h : PlacedById entities)
    (hfit : ∀ e ∈ entities, fits e = true) : (ofEntities entities).IsSound where
  readable _ := Batch.stopped_entities _
  whole path := by
    rw [files_ofEntities]
    exact Batch.drafts_entities _
  laidOut := by
    rw [files_ofEntities]
    exact Files.isLaidOut_ofEntities h
  fit path e he := by
    rw [files_ofEntities] at he
    exact hfit e (Files.mem_ofEntities.mp he).1

/-- Two clauses of one entity, which then moves to another file, and a file that loses an entity. -/
def movedEntities : List Entity × List Entity :=
  let e : Entity := { id := "x", container := "A", name := "f", arity := 1, path := "a.ex"
                      startLine := 1, endLine := 2, lexicalText := "", references := ["B.g/0"] }
  ([e, { e with startLine := 4, endLine := 5 }, { e with id := "y", startLine := 7, endLine := 7 }],
    [{ e with id := "y" }, { e with path := "b.ex", references := ["C.h/2"] }])

/-- The other file comes first: it takes the moved entity away from its old file. -/
theorem refresh_movedEntities :
    let old := Listing.ofEntities movedEntities.1
    let new := Listing.ofEntities movedEntities.2
    ∃ t u, (run { path := "index.db" }
        (buildCall old :: [["b.ex"], ["a.ex"]].map (mergeCall new))).disk.tables? = some t ∧
      (run { path := "index.db" } [buildCall new]).disk.tables? = some u ∧
      t.entities.Perm u.entities ∧ t.texts.Perm u.texts ∧
      ∀ id, t.referencesOf id = u.referencesOf id := by
  have hs : ({ path := "index.db" } : Store).IsBuildable := ⟨by decide, .inl rfl⟩
  have hold := Listing.isSound_ofEntities movedEntities.1
    (by unfold PlacedById; decide) (by decide)
  have hnew := Listing.isSound_ofEntities movedEntities.2
    (by unfold PlacedById; decide) (by decide)
  have hchanged : ∀ path, (Listing.ofEntities movedEntities.1).records path ≠
      (Listing.ofEntities movedEntities.2).records path →
        path ∈ ({"a.ex", "b.ex"} : Finset String) := by
    -- no other file has an entity, before or afterwards
    intro path h
    by_contra hp
    have hnone : ∀ entities : List Entity, (∀ e ∈ entities, e.path = "a.ex" ∨ e.path = "b.ex") →
        (Listing.ofEntities entities).records path = [] := by
      intro entities hall
      rw [Listing.ofEntities, List.map_eq_nil_iff, List.filter_eq_nil_iff]
      intro e he hpath
      apply hp
      rw [← beq_iff_eq.mp hpath]
      simpa using hall e he
    exact h ((hnone _ (by decide)).trans (hnone _ (by decide)).symm)
  have hsplit : ∀ path, path ∈ ({"a.ex", "b.ex"} : Finset String) ↔
      ∃ batch ∈ [["b.ex"], ["a.ex"]], path ∈ batch := by
    intro path
    simp [or_comm]
  exact refresh_eq_rebuild hs hs hold hnew hchanged (by decide) hsplit

end CodeIndex.Store
