import CodeIndex.Proofs.Entity.Grouping
import CodeIndex.Proofs.Store.Rollback

/-!
# Merging in stages

Joining clauses is associative: whichever are joined first, the clause that starts first and was given
first owns the fields, and the references come in the order in which the clauses were given.  So a part of
a batch may be merged before the whole is, and a store that merges what it is handed takes the same from
whoever has merged some of it before.
-/

namespace CodeIndex

section

variable {τ : Type} [DecidableEq τ]

/-! ## Joining -/

theorem Entity.join_assoc (a b c : Entity τ) : (a.join b).join c = a.join (b.join c) := by
  have hstart : min (min a.startLine b.startLine) c.startLine =
      min a.startLine (min b.startLine c.startLine) := Nat.min_assoc ..
  have hstop : max (max a.endLine b.endLine) c.endLine = max a.endLine (max b.endLine c.endLine) :=
    Nat.max_assoc ..
  have hreferences : Text.distinct (Text.distinct (a.references ++ b.references) ++ c.references) =
      Text.distinct (a.references ++ Text.distinct (b.references ++ c.references)) := by
    rw [Text.distinct_distinct_append, Text.distinct_append_distinct, List.append_assoc]
  unfold join
  simp only [hstart, hstop, hreferences]
  -- which clause owns the other fields is told by the three comparisons; two of their answers cannot be
  by_cases hab : a.startLine ≤ b.startLine <;> by_cases hbc : b.startLine ≤ c.startLine <;>
    by_cases hac : a.startLine ≤ c.startLine <;>
    simp only [hab, hbc, hac, if_true, if_false, Nat.min_def]
  · omega
  · omega

theorem Entity.foldl_join (a b : Entity τ) (clauses : List (Entity τ)) :
    clauses.foldl join (a.join b) = a.join (clauses.foldl join b) := by
  induction clauses generalizing b with
  | nil => rfl
  | cons c rest ih => rw [List.foldl_cons, join_assoc, ih, List.foldl_cons]

/-- What two lists of clauses come to is what the one comes to, joined with what the other comes to. -/
theorem Entity.united?_append (first second : List (Entity τ)) :
    united? (first ++ second) = Option.merge join (united? first) (united? second) := by
  cases first with
  | nil =>
    rw [List.nil_append]
    cases united? second <;> rfl
  | cons a first =>
    cases second with
    | nil => rw [List.append_nil]; rfl
    | cons b second =>
      rw [List.cons_append, united?, List.foldl_append, List.foldl_cons, foldl_join]
      rfl

/-! ## Merging -/

theorem filterMap_find?_id {merged : List (Entity τ)} (h : (merged.map Entity.id).Nodup) :
    (merged.map Entity.id).filterMap (fun id => merged.find? (·.id == id)) = merged := by
  rw [List.filterMap_map]
  conv_rhs => rw [← List.filterMap_some (l := merged)]
  apply List.filterMap_congr
  exact fun m hm => find?_id_of_mem h hm

/-- Batches with the same identities merge to the same if, for each identity, their clauses do. -/
theorem mergeClauses_congr {batch other : List (Entity τ)}
    (hids : Text.distinct (batch.map Entity.id) = Text.distinct (other.map Entity.id))
    (hclauses : ∀ id, Entity.united? (batch.filter (·.id == id)) =
      Entity.united? (other.filter (·.id == id))) : mergeClauses batch = mergeClauses other := by
  have hfind : ∀ id, (mergeClauses batch).find? (·.id == id) = (mergeClauses other).find? (·.id == id) := by
    intro id
    rw [find?_mergeClauses, find?_mergeClauses, hclauses]
  rw [← filterMap_find?_id (nodup_map_id_mergeClauses batch),
    ← filterMap_find?_id (nodup_map_id_mergeClauses other), map_id_mergeClauses, map_id_mergeClauses, hids]
  simp only [hfind]

theorem mergeClauses_mergeClauses (batch : List (Entity τ)) :
    mergeClauses (mergeClauses batch) = mergeClauses batch :=
  mergeClauses_of_nodup (nodup_map_id_mergeClauses batch)

theorem mergeClauses_append_left (batch rest : List (Entity τ)) :
    mergeClauses (mergeClauses batch ++ rest) = mergeClauses (batch ++ rest) := by
  have happend : ∀ first : List (Entity τ),
      mergeClauses (first ++ rest) = rest.foldl addClause (mergeClauses first) := fun first =>
    List.foldl_append
  rw [happend, happend, mergeClauses_mergeClauses]

/-- Of a merged batch, one entity has an identity, and it is what the clauses with that identity come
to. -/
theorem united?_filter_mergeClauses (batch : List (Entity τ)) (id : τ) :
    Entity.united? ((mergeClauses batch).filter (·.id == id)) =
      Entity.united? (batch.filter (·.id == id)) := by
  rw [← find?_mergeClauses, mergeClauses_mergeClauses, find?_mergeClauses]

theorem mergeClauses_append_right (front batch : List (Entity τ)) :
    mergeClauses (front ++ mergeClauses batch) = mergeClauses (front ++ batch) := by
  apply mergeClauses_congr
  · rw [List.map_append, List.map_append, map_id_mergeClauses, Text.distinct_append_distinct]
  · intro id
    rw [List.filter_append, List.filter_append, Entity.united?_append, Entity.united?_append,
      united?_filter_mergeClauses]

/-! ## Batches that are merged in part -/

/-- A batch that comes in parts, of which some were merged. -/
def staged (parts : List (Bool × List (Entity τ))) : List (Entity τ) :=
  parts.flatMap fun part => if part.1 then mergeClauses part.2 else part.2

theorem mergeClauses_staged (parts : List (Bool × List (Entity τ))) :
    mergeClauses (staged parts) = mergeClauses (parts.flatMap Prod.snd) := by
  unfold staged
  induction parts with
  | nil => rfl
  | cons part rest ih =>
    rw [List.flatMap_cons, List.flatMap_cons, ← mergeClauses_append_right, ih, mergeClauses_append_right]
    split
    · exact mergeClauses_append_left _ _
    · rfl

end

namespace Store

/-- A batch of checked records is read without a word. -/
theorem on_draftsOf_drafts (drafts : List Draft) (s : Store) :
    (draftsOf (drafts.map .draft)).on s = (.ok (mergeClauses drafts), s) := by
  have hmalformed : ∀ readings : List (Option Int × Reading),
      (∀ r ∈ readings, ∃ d, r.2 = .draft d) → (Batch.ofReadings none readings).malformed = [] := by
    intro readings h
    induction readings with
    | nil => rfl
    | cons r rest ih =>
      obtain ⟨line, reading⟩ := r
      obtain ⟨⟨d, rfl⟩, hrest⟩ := List.forall_mem_cons.mp h
      exact ih hrest
  have hlog : batchLog (drafts.map .draft) = [] := by
    rw [batchLog, Batch.ofRecords, hmalformed]
    · rfl
    · intro r hr
      have hsnd := List.mem_map_of_mem (f := Prod.snd) hr
      rw [Batch.numbered_eq, List.map_map] at hsnd
      obtain ⟨d, -, hd⟩ := List.mem_map.mp hsnd
      exact ⟨d, hd.symm⟩
  rw [on_draftsOf, Batch.stopped_drafts, draftsIn, Batch.drafts_drafts, hlog]
  rfl

theorem on_rebuild_staged (parts : List (Bool × List Draft)) (s : Store) :
    (rebuild ((staged parts).map .draft)).on s =
      (rebuild ((parts.flatMap Prod.snd).map .draft)).on s := by
  unfold rebuild
  rw [on_bind, on_bind, on_draftsOf_drafts, on_draftsOf_drafts, mergeClauses_staged]

theorem on_merge_staged (parts : List (Bool × List Draft)) (paths : List Writing) (s : Store) :
    (merge ((staged parts).map .draft) paths).on s =
      (merge ((parts.flatMap Prod.snd).map .draft) paths).on s := by
  unfold merge
  rw [on_bind, on_bind, on_draftsOf_drafts, on_draftsOf_drafts, mergeClauses_staged]

end Store

/-- Merging part of a batch first, at its front or at its end, changes nothing, and neither does merging
what is merged.  So, whichever parts of a batch were merged before, the store that merges it again makes
the same entities of it, and rebuilding from it and merging it in end as they would have. -/
theorem mergeClauses_in_stages (front rest : List Draft) :
    mergeClauses (mergeClauses front ++ rest) = mergeClauses (front ++ rest) ∧
      mergeClauses (front ++ mergeClauses rest) = mergeClauses (front ++ rest) ∧
      mergeClauses (mergeClauses front) = mergeClauses front ∧
      ∀ parts : List (Bool × List Draft),
        mergeClauses (staged parts) = mergeClauses (parts.flatMap Prod.snd) ∧
        ∀ (s : Store) (paths : List Writing),
          (Store.rebuild ((staged parts).map .draft)).on s =
              (Store.rebuild ((parts.flatMap Prod.snd).map .draft)).on s ∧
            (Store.merge ((staged parts).map .draft) paths).on s =
              (Store.merge ((parts.flatMap Prod.snd).map .draft) paths).on s := by
  refine ⟨mergeClauses_append_left front rest, mergeClauses_append_right front rest,
    mergeClauses_mergeClauses front, fun parts => ⟨mergeClauses_staged parts, fun s paths => ?_⟩⟩
  exact ⟨Store.on_rebuild_staged parts s, Store.on_merge_staged parts paths s⟩

end CodeIndex
