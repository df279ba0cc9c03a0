import CodeIndex.Proofs.Store.Stored
import Mathlib.Data.Set.Basic

/-!
# Files and what the store should hold for them

A project gives each path the entities of its file.  Where no identity occurs in two files, the store can
hold every file at once, and records that were read from some of the files bring the store up to date for
these and spoil no other.
-/

namespace CodeIndex.Store

/-- The entities of each file, clause by clause. -/
abbrev Files := String → List Entity

namespace Files

/-- Every entity carries the path of its file, and no identity occurs in two files. -/
structure IsLaidOut (files : Files) : Prop where
  placed : ∀ path, ∀ e ∈ files path, e.path = path
  apart : ∀ p q, ∀ a ∈ files p, ∀ b ∈ files q, a.id = b.id → p = q

/-- What a store should hold for a file: one entity for each identity, each reference once. -/
def shown (files : Files) (path : String) : List Entity :=
  (mergeClauses (files path)).map Tables.kept

theorem shown_congr {files files' : Files} {path : String} (h : files path = files' path) :
    files.shown path = files'.shown path := by
  rw [shown, h, shown]

theorem shown_of_eq_nil {files : Files} {path : String} (h : files path = []) :
    files.shown path = [] := by
  rw [shown, h]
  rfl

/-- An identity that is shown for a file is one of the file's. -/
theorem exists_of_mem_shown {files : Files} {path : String} {e : Entity}
    (he : e ∈ files.shown path) : ∃ a ∈ files path, a.id = e.id := by
  obtain ⟨m, hm, rfl⟩ := List.mem_map.mp he
  obtain ⟨a, ha, hid, -⟩ := exists_of_mem_mergeClauses hm
  exact ⟨a, ha, hid⟩

def ofEntities (entities : List Entity) : Files :=
  fun path => entities.filter (·.path == path)

theorem mem_ofEntities {entities : List Entity} {path : String} {e : Entity} :
    e ∈ ofEntities entities path ↔ e ∈ entities ∧ e.path = path := by
  rw [ofEntities, List.mem_filter, beq_iff_eq]

theorem isLaidOut_ofEntities {entities : List Entity} (h : PlacedById entities) :
    (ofEntities entities).IsLaidOut where
  placed _ _ he := (mem_ofEntities.mp he).2
  apart p q a ha b hb hid := by
    obtain ⟨hae, hap⟩ := mem_ofEntities.mp ha
    obtain ⟨hbe, hbq⟩ := mem_ofEntities.mp hb
    rw [← hap, ← hbq]
    exact h a hae b hbe hid

end Files

/-- Records that have what the files in a scope have, and nothing of other files or that cannot be
encoded. -/
structure Reads (records : List Record) (files : Files) (scope : Set String) : Prop where
  whole : (Batch.ofRecords records).drafts = (Batch.ofRecords records).entities.map Entity.draft
  found : ∀ path ∈ scope,
    (Batch.ofRecords records).entities.filter (·.path == path) = files path
  within : ∀ e ∈ (Batch.ofRecords records).entities, e.path ∈ scope

namespace Reads

variable {records : List Record} {files : Files} {scope : Set String}

theorem mem_files (h : Reads records files scope) {e : Entity}
    (he : e ∈ (Batch.ofRecords records).entities) : e ∈ files e.path := by
  rw [← h.found e.path (h.within e he), List.mem_filter]
  exact ⟨he, by simp⟩

theorem placedById (h : Reads records files scope) (hf : files.IsLaidOut) :
    PlacedById (Batch.ofRecords records).entities :=
  fun _ ha _ hb hid => hf.apart _ _ _ (h.mem_files ha) _ (h.mem_files hb) hid

theorem entitiesIn_eq (h : Reads records files scope) :
    entitiesIn records = mergeClauses (Batch.ofRecords records).entities :=
  entitiesIn_of_drafts h.whole

theorem filter_entitiesIn (h : Reads records files scope) (hf : files.IsLaidOut) {path : String}
    (hp : path ∈ scope) :
    (entitiesIn records).filter (·.path == path) = mergeClauses (files path) := by
  rw [h.entitiesIn_eq, filter_path_mergeClauses (h.placedById hf), h.found path hp]

theorem exists_of_mem_entitiesIn (h : Reads records files scope) {m : Entity}
    (hm : m ∈ entitiesIn records) : m.path ∈ scope ∧ ∃ e ∈ files m.path, e.id = m.id := by
  rw [h.entitiesIn_eq] at hm
  obtain ⟨e, he, hid, hp⟩ := exists_of_mem_mergeClauses hm
  have hfiles := h.mem_files he
  have hscope := h.within e he
  rw [hp] at hfiles hscope
  exact ⟨hscope, e, hfiles, hid⟩

/-- Identities of the records are none of a file that is outside the scope. -/
theorem not_mem_ids (h : Reads records files scope) (hf : files.IsLaidOut) {path : String}
    (hp : path ∉ scope) {e : Entity} (he : e ∈ files.shown path) :
    e.id ∉ (entitiesIn records).map Entity.id := by
  intro hid
  obtain ⟨m, hm, hme⟩ := List.mem_map.mp hid
  obtain ⟨hscope, b, hb, hbm⟩ := h.exists_of_mem_entitiesIn hm
  obtain ⟨a, ha, hae⟩ := Files.exists_of_mem_shown he
  have : m.path = path := hf.apart _ _ b hb a ha (by rw [hbm, hme, hae])
  exact hp (this ▸ hscope)

end Reads

/-- Inserting what was read leaves the files outside the scope as they are shown. -/
theorem stored_insert_of_not_mem {records : List Record} {files : Files} {scope : Set String}
    (h : Reads records files scope) (hf : files.IsLaidOut) {t : Tables} {path : String}
    (hp : path ∉ scope) (ht : t.stored path = files.shown path) :
    (t.insert (entitiesIn records)).stored path = files.shown path := by
  have hnew : (entitiesIn records).filter (·.path == path) = [] := by
    rw [List.filter_eq_nil_iff]
    intro m hm hmp
    have := (h.exists_of_mem_entitiesIn hm).1
    exact hp (beq_iff_eq.mp hmp ▸ this)
  rw [Tables.stored_insert t (nodup_map_id_entitiesIn records), hnew, ht, List.map_nil,
    List.append_nil, List.filter_eq_self]
  intro e he
  simpa using h.not_mem_ids hf hp he

/-- A merge of what was read from some files brings the store up to date for these, and where it was up
to date it still is. -/
theorem stored_merge {records : List Record} {files : Files} {paths : List String}
    (h : Reads records files {p | p ∈ paths}) (hf : files.IsLaidOut) {t : Tables} (ht : Lockstep t)
    {path : String} (hp : path ∈ paths ∨ t.stored path = files.shown path) :
    (t.merge (affected (entitiesIn records) paths) (entitiesIn records)).stored path =
      files.shown path := by
  have hpurge := Tables.stored_purgeAll ht (affected (entitiesIn records) paths) path
  have haffected : path ∈ affected (entitiesIn records) paths ↔ path ∈ paths := by
    rw [affected, Text.mem_sortedBy, Text.mem_distinct, List.mem_append, List.mem_map]
    constructor
    · rintro (⟨m, hm, rfl⟩ | hp)
      · exact (h.exists_of_mem_entitiesIn hm).1
      · exact hp
    · exact .inr
  rw [Tables.merge]
  by_cases hmem : path ∈ paths
  · -- the path was purged, so that only what is inserted stands there
    rw [if_pos (haffected.mpr hmem)] at hpurge
    rw [Tables.stored_insert _ (nodup_map_id_entitiesIn records), hpurge, List.filter_nil,
      List.nil_append, h.filter_entitiesIn hf hmem]
    rfl
  · rw [if_neg (by rwa [haffected])] at hpurge
    exact stored_insert_of_not_mem h hf hmem (hpurge.trans (hp.resolve_left hmem))

/-- A rebuild from what was read from all files brings the store up to date for each. -/
theorem stored_rebuild {records : List Record} {files : Files} (h : Reads records files Set.univ)
    (hf : files.IsLaidOut) (path : String) :
    (Tables.insert {} (entitiesIn records)).stored path = files.shown path := by
  rw [Tables.stored_insert _ (nodup_map_id_entitiesIn records), Tables.stored_empty, List.filter_nil,
    List.nil_append, h.filter_entitiesIn hf (Set.mem_univ path)]
  rfl

end CodeIndex.Store
