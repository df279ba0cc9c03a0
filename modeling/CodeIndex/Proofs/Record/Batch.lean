import CodeIndex.Proofs.Entity.Normal
import CodeIndex.Record.Batch
import Mathlib.Data.List.Basic

/-!
# What a batch has

A batch that is read to its end has the drafts of its readings, in order; where the records stood does
not matter.  Batches put one after another therefore have the drafts of each.  All drafts of a batch are
in normal form, if those are that it was given as drafts.
-/

namespace CodeIndex

def Reading.draft? : Reading → Option Draft
  | .draft d => some d
  | _ => none

def Reading.isRefused : Reading → Bool
  | .refused _ => true
  | _ => false

namespace Batch

theorem stopped_ofReadings (source : Option String) (readings : List (Option Int × Reading)) :
    (ofReadings source readings).stopped = none ↔ ∀ r ∈ readings, r.2.isRefused = false := by
  induction readings with
  | nil => simp [ofReadings]
  | cons r rest ih =>
    obtain ⟨line, reading⟩ := r
    rw [ofReadings, List.forall_mem_cons, ← ih]
    cases reading <;> simp [push, Reading.isRefused]

theorem drafts_ofReadings {source : Option String} {readings : List (Option Int × Reading)}
    (h : (ofReadings source readings).stopped = none) :
    (ofReadings source readings).drafts = readings.filterMap fun r => r.2.draft? := by
  induction readings with
  | nil => rfl
  | cons r rest ih =>
    obtain ⟨line, reading⟩ := r
    have hrest : (ofReadings source rest).stopped = none := by
      rw [stopped_ofReadings] at h ⊢
      exact fun x hx => h x (List.mem_cons_of_mem _ hx)
    have hread := (stopped_ofReadings source _).mp h _ List.mem_cons_self
    rw [ofReadings, List.filterMap_cons, ← ih hrest]
    cases reading with
    | blank => rfl
    | draft d => rfl
    | malformed reason => rfl
    | refused fault => cases hread

theorem numbered_eq {α β : Type} (f : α → β) (items : List α) :
    ((numbered items).map fun (i, x) => (i, f x)).map Prod.snd = items.map f := by
  rw [numbered, List.map_map, List.map_map]
  calc _ = (items.zipIdx.map Prod.fst).map f := by
        rw [List.map_map]
        rfl
    _ = items.map f := by rw [List.zipIdx_map_fst]

/-- A batch of records is read to its end if the reader gives up on none of them. -/
theorem stopped_ofRecords (records : List Record) :
    (ofRecords records).stopped = none ↔ ∀ r ∈ records, (readingOf r).isRefused = false := by
  rw [ofRecords, stopped_ofReadings]
  have h : ∀ readings : List (Option Int × Reading),
      (∀ r ∈ readings, r.2.isRefused = false) ↔
        ∀ r ∈ readings.map Prod.snd, r.isRefused = false := by
    intro readings
    rw [List.forall_mem_map]
  rw [h, numbered_eq, List.forall_mem_map]

theorem drafts_ofRecords {records : List Record} (h : (ofRecords records).stopped = none) :
    (ofRecords records).drafts = records.filterMap fun r => (readingOf r).draft? := by
  rw [ofRecords, drafts_ofReadings h]
  have hsnd : ∀ readings : List (Option Int × Reading),
      readings.filterMap (fun r => r.2.draft?) =
        (readings.map Prod.snd).filterMap Reading.draft? := by
    intro readings
    rw [List.filterMap_map]
    rfl
  rw [hsnd, numbered_eq, List.filterMap_map]
  rfl

/-- The records of several files, each read to its end, have the drafts of each file in turn. -/
theorem ofRecords_flatMap {records : String → List Record} {paths : List String}
    (h : ∀ path ∈ paths, (ofRecords (records path)).stopped = none) :
    (ofRecords (paths.flatMap records)).stopped = none ∧
      (ofRecords (paths.flatMap records)).drafts =
        paths.flatMap fun path => (ofRecords (records path)).drafts := by
  have hstop : (ofRecords (paths.flatMap records)).stopped = none := by
    rw [stopped_ofRecords]
    intro r hr
    obtain ⟨path, hp, hr⟩ := List.mem_flatMap.mp hr
    exact (stopped_ofRecords _).mp (h path hp) r hr
  refine ⟨hstop, ?_⟩
  rw [drafts_ofRecords hstop, List.filterMap_flatMap]
  apply List.flatMap_congr
  intro path hp
  rw [drafts_ofRecords (h path hp)]

/-- Records that were checked are read as they are. -/
theorem stopped_drafts (drafts : List Draft) : (ofRecords (drafts.map .draft)).stopped = none := by
  rw [stopped_ofRecords, List.forall_mem_map]
  exact fun _ _ => rfl

theorem drafts_drafts (drafts : List Draft) : (ofRecords (drafts.map .draft)).drafts = drafts := by
  rw [drafts_ofRecords (stopped_drafts _), List.filterMap_map]
  exact List.filterMap_some

theorem records_entities (entities : List Entity) :
    entities.map Record.entity = (entities.map Entity.draft).map .draft := by
  rw [List.map_map]
  rfl

theorem stopped_entities (entities : List Entity) :
    (ofRecords (entities.map .entity)).stopped = none := by
  rw [records_entities, stopped_drafts]

theorem drafts_entities (entities : List Entity) :
    (ofRecords (entities.map .entity)).drafts = entities.map Entity.draft := by
  rw [records_entities, drafts_drafts]

end Batch

/-! ## Normal form -/

/-- A record that is in normal form if it is given as a draft. -/
def Record.IsNormal : Record → Prop
  | .draft d => d.IsNormal
  | .line _ => True
  | .value _ => True

instance : (r : Record) → Decidable r.IsNormal
  | .draft d => inferInstanceAs (Decidable d.IsNormal)
  | .line _ => .isTrue trivial
  | .value _ => .isTrue trivial

/-- What is read as a draft has passed its check. -/
theorem Reading.eq_ok_of_ofValue {v : Value} {d : Draft}
    (h : (Reading.ofValue v).draft? = some d) : Draft.ofValue v = .ok d := by
  unfold Reading.ofValue at h
  split at h
  · split at h
    · rename_i hv
      injection h with h
      exact h ▸ hv
    · cases h
  · cases h

theorem Reading.isNormal_of_ofValue {v : Value} {d : Draft}
    (h : (Reading.ofValue v).draft? = some d) : d.IsNormal :=
  Draft.isNormal_of_ofValue (Reading.eq_ok_of_ofValue h)

theorem Record.isNormal_of_readingOf {r : Record} (h : r.IsNormal) {d : Draft}
    (hd : (Batch.readingOf r).draft? = some d) : d.IsNormal := by
  cases r with
  | draft x =>
    injection hd with hd
    exact hd ▸ h
  | value v => exact Reading.isNormal_of_ofValue hd
  | line s =>
    unfold Batch.readingOf Reading.ofLine at hd
    simp only at hd
    split at hd
    · cases hd
    · split at hd
      · exact Reading.isNormal_of_ofValue hd
      all_goals cases hd

theorem Batch.isNormal_of_mem {records : List Record} (hread : (ofRecords records).stopped = none)
    (h : ∀ r ∈ records, r.IsNormal) : ∀ d ∈ (ofRecords records).drafts, d.IsNormal := by
  intro d hd
  rw [drafts_ofRecords hread, List.mem_filterMap] at hd
  obtain ⟨r, hr, hd⟩ := hd
  exact Record.isNormal_of_readingOf (h r hr) hd

end CodeIndex
