import CodeIndex.Proofs.Entity.Normal
import Mathlib.Data.List.Induction

/-!
# Merging clauses by identity

Merging runs over the records once and rewrites the entities it has so far.  Seen from one identity, the
run only joins the clauses of that identity, in the order in which they come; so what it leaves for an
identity is told by those clauses alone: they fix the span, the references and the clause that owns the
other fields.
-/

namespace CodeIndex

variable {τ : Type} [DecidableEq τ]

def Entity.united? : List (Entity τ) → Option (Entity τ)
  | [] => none
  | e :: rest => some (rest.foldl Entity.join e)

theorem Entity.united?_concat (clauses : List (Entity τ)) (e : Entity τ) :
    Entity.united? (clauses ++ [e]) = some ((Entity.united? clauses).elim e (·.join e)) := by
  cases clauses with
  | nil => rfl
  | cons c rest =>
    rw [List.cons_append, united?, List.foldl_append]
    rfl

/-! ## One identity of a batch -/

theorem find?_addClause_of_ne {e : Entity τ} {id : τ} (h : e.id ≠ id) (merged : List (Entity τ)) :
    (addClause merged e).find? (·.id == id) = merged.find? (·.id == id) := by
  induction merged with
  | nil => exact List.find?_cons_of_neg (by simpa using h)
  | cons m rest ih =>
    rw [addClause]
    by_cases hm : m.id = e.id
    · have hjoin : (m.join e).id ≠ id := by rwa [Entity.join_id hm, hm]
      rw [if_pos (beq_iff_eq.mpr hm), List.find?_cons_of_neg (by simpa using hjoin),
        List.find?_cons_of_neg (by simpa [hm] using h)]
    · rw [if_neg (by simpa using hm), List.find?_cons, List.find?_cons, ih]

theorem find?_addClause_self (merged : List (Entity τ)) (e : Entity τ) :
    (addClause merged e).find? (·.id == e.id) =
      some ((merged.find? (·.id == e.id)).elim e (·.join e)) := by
  induction merged with
  | nil => exact List.find?_cons_of_pos (by simp)
  | cons m rest ih =>
    rw [addClause]
    by_cases hm : m.id = e.id
    · rw [if_pos (beq_iff_eq.mpr hm), List.find?_cons_of_pos (by simpa [Entity.join_id hm] using hm),
        List.find?_cons_of_pos (by simpa using hm)]
      rfl
    · rw [if_neg (by simpa using hm), List.find?_cons_of_neg (by simpa using hm), ih,
        List.find?_cons_of_neg (by simpa using hm)]

/-- Merging leaves for each identity its clauses as one. -/
theorem find?_mergeClauses (entities : List (Entity τ)) (id : τ) :
    (mergeClauses entities).find? (·.id == id) =
      Entity.united? (entities.filter (·.id == id)) := by
  induction entities using List.reverseRec with
  | nil => rfl
  | append_singleton entities e ih =>
    have hmerge : mergeClauses (entities ++ [e]) = addClause (mergeClauses entities) e :=
      List.foldl_append
    rw [hmerge, List.filter_append]
    by_cases h : e.id = id
    · subst h
      rw [find?_addClause_self, ih, List.filter_cons_of_pos (by simp), List.filter_nil,
        Entity.united?_concat]
    · rw [find?_addClause_of_ne h, ih, List.filter_cons_of_neg (by simpa using h), List.filter_nil,
        List.append_nil]

theorem find?_id_of_mem {merged : List (Entity τ)} (h : (merged.map Entity.id).Nodup) {m : Entity τ}
    (hm : m ∈ merged) : merged.find? (·.id == m.id) = some m := by
  obtain ⟨x, hx⟩ := Option.isSome_iff_exists.mp
    (List.find?_isSome.mpr ⟨m, hm, beq_self_eq_true m.id⟩ :
      (merged.find? (·.id == m.id)).isSome = true)
  have hid : x.id = m.id := by simpa using List.find?_some hx
  rw [hx, List.inj_on_of_nodup_map h (List.mem_of_find?_eq_some hx) hm hid]

/-! ## What the clauses of an identity fix -/

/-- One entity in place of clauses, in the order in which they came: it spans all of them, refers once
to whatever they refer to, and has its other fields from the first of those that start first. -/
structure Entity.Unites (m : Entity τ) (clauses : List (Entity τ)) : Prop where
  start : (clauses.map Entity.startLine).min? = some m.startLine
  stop : (clauses.map Entity.endLine).max? = some m.endLine
  references : m.references = (clauses.flatMap Entity.references).eraseDups
  owner : ∃ c, clauses.find? (·.startLine == m.startLine) = some c ∧
    m = { c with endLine := m.endLine, references := m.references }

theorem Entity.unites_singleton {e : Entity τ} (h : e.references.Nodup) : e.Unites [e] where
  start := rfl
  stop := rfl
  references := by
    rw [List.flatMap_singleton, ← Text.distinct_eq_eraseDups, Text.distinct_of_nodup h]
  owner := ⟨e, List.find?_cons_of_pos (beq_self_eq_true _), rfl⟩

theorem min?_concat {ns : List Nat} {n : Nat} (h : ns.min? = some n) (k : Nat) :
    (ns ++ [k]).min? = some (min n k) := by
  cases ns with
  | nil => cases h
  | cons x rest =>
    rw [List.min?_cons', Option.some.injEq] at h
    rw [List.cons_append, List.min?_cons', List.foldl_append, h]
    rfl

theorem max?_concat {ns : List Nat} {n : Nat} (h : ns.max? = some n) (k : Nat) :
    (ns ++ [k]).max? = some (max n k) := by
  cases ns with
  | nil => cases h
  | cons x rest =>
    rw [List.max?_cons', Option.some.injEq] at h
    rw [List.cons_append, List.max?_cons', List.foldl_append, h]
    rfl

/-- Joining one more clause: the owner of the fields changes only when the clause starts earlier. -/
theorem Entity.Unites.concat {m : Entity τ} {clauses : List (Entity τ)} (h : m.Unites clauses)
    (e : Entity τ) : (m.join e).Unites (clauses ++ [e]) where
  start := by
    rw [List.map_append]
    exact min?_concat h.start e.startLine
  stop := by
    rw [List.map_append]
    exact max?_concat h.stop e.endLine
  references := by
    change Text.distinct (m.references ++ e.references) = _
    rw [List.flatMap_append, List.flatMap_singleton, h.references, ← Text.distinct_eq_eraseDups,
      Text.distinct_distinct_append, Text.distinct_eq_eraseDups]
  owner := by
    obtain ⟨c, hc, howned⟩ := h.owner
    have hle := (List.min?_eq_some_iff.mp h.start).2
    change ∃ c', (clauses ++ [e]).find? (·.startLine == min m.startLine e.startLine) = some c' ∧ _
    rw [List.find?_append]
    by_cases hme : m.startLine ≤ e.startLine
    · refine ⟨c, by rw [Nat.min_eq_left hme, hc, Option.some_or], ?_⟩
      have hstart : c.startLine = m.startLine := by simpa using List.find?_some hc
      rw [join, if_pos hme, Nat.min_eq_left hme, ← hstart]
      rw [howned]
    · have hem : e.startLine < m.startLine := Nat.lt_of_not_le hme
      -- no clause so far starts as early
      have hnone : clauses.find? (·.startLine == e.startLine) = none := by
        rw [List.find?_eq_none]
        intro x hx heq
        have := hle x.startLine (List.mem_map_of_mem hx)
        have : x.startLine = e.startLine := by simpa using heq
        omega
      refine ⟨e, ?_, ?_⟩
      · rw [Nat.min_eq_right (Nat.le_of_lt hem), hnone, Option.none_or]
        exact List.find?_cons_of_pos (beq_self_eq_true _)
      · rw [join, if_neg hme, Nat.min_eq_right (Nat.le_of_lt hem)]

theorem Entity.unites_of_united? {clauses : List (Entity τ)}
    (h : ∀ e ∈ clauses, e.references.Nodup) {m : Entity τ} (hm : Entity.united? clauses = some m) :
    m.Unites clauses := by
  induction clauses using List.reverseRec generalizing m with
  | nil => cases hm
  | append_singleton clauses e ih =>
    rw [united?_concat, Option.some.injEq] at hm
    subst hm
    cases hu : Entity.united? clauses with
    | none =>
      have hnil : clauses = [] := by
        cases clauses with
        | nil => rfl
        | cons c rest => cases hu
      subst hnil
      exact unites_singleton (h e List.mem_cons_self)
    | some u => exact (ih (fun x hx => h x (List.mem_append_left _ hx)) hu).concat e

/-! ## Clauses in another order -/

theorem Entity.Unites.perm {m m' : Entity τ} {clauses clauses' : List (Entity τ)}
    (h : m.Unites clauses) (h' : m'.Unites clauses') (hperm : clauses'.Perm clauses) :
    m'.startLine = m.startLine ∧ m'.endLine = m.endLine ∧ m'.references.Perm m.references := by
  refine ⟨?_, ?_, ?_⟩
  · obtain ⟨hmem, hle⟩ := List.min?_eq_some_iff.mp h.start
    obtain ⟨hmem', hle'⟩ := List.min?_eq_some_iff.mp h'.start
    have hstarts := hperm.map Entity.startLine
    exact Nat.le_antisymm (hle' _ (hstarts.mem_iff.mpr hmem)) (hle _ (hstarts.mem_iff.mp hmem'))
  · obtain ⟨hmem, hle⟩ := List.max?_eq_some_iff.mp h.stop
    obtain ⟨hmem', hle'⟩ := List.max?_eq_some_iff.mp h'.stop
    have hstops := hperm.map Entity.endLine
    exact Nat.le_antisymm (hle _ (hstops.mem_iff.mp hmem')) (hle' _ (hstops.mem_iff.mpr hmem))
  · rw [h.references, h'.references, ← Text.distinct_eq_eraseDups, ← Text.distinct_eq_eraseDups,
      List.perm_ext_iff_of_nodup (Text.nodup_distinct _) (Text.nodup_distinct _)]
    intro s
    rw [Text.mem_distinct, Text.mem_distinct]
    exact (hperm.flatMap_right _).mem_iff

/-! ## Merging a batch -/

theorem unites_of_mem_mergeClauses {entities : List (Entity τ)}
    (h : ∀ e ∈ entities, e.references.Nodup) {m : Entity τ} (hm : m ∈ mergeClauses entities) :
    m.Unites (entities.filter (·.id == m.id)) := by
  have hfind := find?_id_of_mem (nodup_map_id_mergeClauses entities) hm
  rw [find?_mergeClauses] at hfind
  exact Entity.unites_of_united? (fun e he => h e (List.mem_of_mem_filter he)) hfind

/-- Merging a batch of checked records leaves one entity per identity, in order of first occurrence,
each in place of the clauses with its identity.  In another order the records merge to the same
identities with the same spans and references. -/
theorem mergeClauses_unites {drafts : List Draft} (h : ∀ d ∈ drafts, ∃ v, Draft.ofValue v = .ok d) :
    (mergeClauses drafts).map Entity.id = (drafts.map Entity.id).eraseDups ∧
      (∀ m ∈ mergeClauses drafts, m.Unites (drafts.filter (·.id == m.id))) ∧
      ∀ other : List Draft, other.Perm drafts →
        ((mergeClauses other).map Entity.id).Perm ((mergeClauses drafts).map Entity.id) ∧
          ∀ m ∈ mergeClauses drafts, ∃ m' ∈ mergeClauses other, m'.id = m.id ∧
            m'.startLine = m.startLine ∧ m'.endLine = m.endLine ∧
              m'.references.Perm m.references := by
  have hnodup : ∀ d ∈ drafts, d.references.Nodup := by
    intro d hd
    obtain ⟨v, hv⟩ := h d hd
    exact (Draft.isNormal_of_ofValue hv).references
  refine ⟨?_, fun m hm => unites_of_mem_mergeClauses hnodup hm, ?_⟩
  · rw [map_id_mergeClauses, Text.distinct_eq_eraseDups]
  intro other hperm
  have hids : ((mergeClauses other).map Entity.id).Perm ((mergeClauses drafts).map Entity.id) := by
    rw [map_id_mergeClauses, map_id_mergeClauses]
    exact Text.distinct_perm (hperm.map Entity.id)
  refine ⟨hids, ?_⟩
  intro m hm
  obtain ⟨m', hm', hid⟩ := List.mem_map.mp (hids.mem_iff.mpr (List.mem_map_of_mem hm))
  have hother : ∀ e ∈ other, e.references.Nodup := fun e he => hnodup e (hperm.mem_iff.mp he)
  have hunites' := unites_of_mem_mergeClauses hother hm'
  rw [hid] at hunites'
  exact ⟨m', hm', hid, (unites_of_mem_mergeClauses hnodup hm).perm hunites' (hperm.filter _)⟩

/-- Three clauses of one entity around another entity; the two that start first start together. -/
def scattered : List Draft :=
  [{ id := "put", container := "store", name := "put", arity := 2, path := "store.py",
     startLine := 7, endLine := 9, lexicalText := "", references := ["log", "open"] },
   { id := "get", container := "store", name := "get", arity := 1, path := "store.py",
     startLine := 5, endLine := 6, lexicalText := "" },
   { id := "put", container := "store", name := "put", arity := 2, path := "store.py",
     startLine := 3, endLine := 4, lexicalText := "", doc := some "Puts.", references := ["seek", "log"] },
   { id := "put", container := "store", name := "put", arity := 2, path := "store.py",
     startLine := 3, endLine := 4, lexicalText := "", doc := some "Puts it.", references := ["close"] }]

theorem mergeClauses_unites_scattered :
    (∀ d ∈ scattered, ∃ v, Draft.ofValue v = .ok d) ∧
      (mergeClauses scattered).map Entity.id = [.whole "put", .whole "get"] ∧
      ∃ m ∈ mergeClauses scattered, m.Unites (scattered.filter (·.id == .whole "put")) ∧
        m.startLine = 3 ∧ m.endLine = 9 ∧ m.doc = some "Puts." ∧
          m.references = ["log", "open", "seek", "close"] := by
  have hnormal : ∀ d ∈ scattered, d.IsNormal := by decide
  have hchecked : ∀ d ∈ scattered, ∃ v, Draft.ofValue v = .ok d := fun d hd =>
    ⟨d.toValue, Draft.ofValue_toValue (hnormal d hd)⟩
  obtain ⟨hids, hunites, -⟩ := mergeClauses_unites hchecked
  refine ⟨hchecked, hids.trans (by decide), _, List.mem_cons_self, hunites _ List.mem_cons_self, ?_⟩
  decide

end CodeIndex
