import CodeIndex.Proofs.FullText.Word
import CodeIndex.Proofs.Store.Reading

/-!
# Searching for one word

A word finds the entities that mention it: no entity is left out, and none is found that was purged or
replaced.  The rows that a query for a word matches are those of the full-text table, and since the tables
are in lockstep there is one such row for each entity, with the texts of the entity itself.
-/

namespace CodeIndex

open FullText (IsWord folded tokens)

/-- The identity, the container or the text of an entity has the token of a word. -/
def Entity.Mentions (e : Entity) (w : String) : Prop :=
  folded w ∈ tokens e.id ∨ folded w ∈ tokens e.container ∨ folded w ∈ tokens e.lexicalText

instance (e : Entity) (w : String) : Decidable (e.Mentions w) :=
  inferInstanceAs (Decidable (_ ∨ _))

namespace Store

/-! ## What a word finds -/

theorem taken?_of_isWord {w : String} (hw : IsWord w) : taken? w = some (.ofWord w) := by
  unfold taken?
  rcases hw.ofString? with h | h
  · rw [h]
  · rw [h, hw.ofString?_quoteQuery]

theorem Tables.accepts_textRow (e : Entity) (w : String) :
    (FullText.Query.ofWord w).accepts (textRow e) = decide (e.Mentions w) := by
  rw [Bool.eq_iff_iff, decide_eq_true_eq]
  exact FullText.accepts_ofWord

/-! ## What a change takes away and brings -/

/-- A change takes away what the store has for a path. -/
def Drops : Change → String → Prop
  | .rebuild _, _ => True
  | .merge records paths, path =>
    path ∈ (entitiesIn records).map Entity.path ++ Writing.wholes paths
  | .purge purged, path => purged = .whole path

instance : (c : Change) → (path : String) → Decidable (Drops c path)
  | .rebuild _, _ => .isTrue trivial
  | .merge .., _ => inferInstanceAs (Decidable (_ ∈ _))
  | .purge _, _ => inferInstanceAs (Decidable (_ = _))

def brought : Change → List Entity
  | .rebuild records => entitiesIn records
  | .merge records _ => entitiesIn records
  | .purge _ => []

/-- What is there after a change was brought by it, or was there and is at a path that it leaves. -/
theorem Catalog.brought_or_kept {cat : Catalog} {c : Change} {id : String} {e : Entity}
    (h : (cat.after c)[id]? = some e) : e ∈ brought c ∨ cat[id]? = some e ∧ ¬ Drops c e.path := by
  have hput : ∀ (cat : Catalog) {records : List Record},
      (cat.putAll (entitiesIn records))[id]? = some e → e ∈ entitiesIn records ∨ cat[id]? = some e := by
    intro cat records hput
    rw [getElem?_putAll cat (nodup_map_id_entitiesIn records), Option.or_eq_some_iff] at hput
    rcases hput with hnew | ⟨-, hold⟩
    · exact .inl (List.mem_of_find?_eq_some hnew)
    · exact .inr hold
  have hwithout : ∀ {paths : List String}, (cat.without paths)[id]? = some e →
      cat[id]? = some e ∧ e.path ∉ paths := by
    intro paths hkept
    rw [getElem?_without, Option.filter_eq_some_iff] at hkept
    simpa using hkept
  cases c with
  | rebuild records => exact .inl ((hput ∅ h).resolve_right nofun)
  | merge records paths => exact (hput _ h).imp_right hwithout
  | purge path =>
    obtain ⟨hold, hp⟩ := hwithout h
    refine .inr ⟨hold, fun hpath : path = .whole e.path => hp ?_⟩
    rw [hpath]
    exact List.mem_singleton.mpr rfl

/-! ## After any run -/

section

variable {s : Store} {t : Tables} {cat : Catalog} {w : String} {k : Int}

theorem Represents.search_word (h : Represents t cat) (ht : s.disk.tables? = some t) (hw : IsWord w)
    (hk : cat.size ≤ k) (hrange : k < integerBound) :
    ∃ hits s', (search (.whole w) k).on s = (.ok hits, s') ∧ (hits.map (·.entity.id)).Nodup ∧
      (hits.map Hit.entity).Perm ((cat.entities.filter (·.Mentions w)).map Tables.row) := by
  obtain ⟨events, hon⟩ := on_search ht h.isSound (.whole w) k
  rw [t.searched_of_not_blank hw.allBlank hrange] at hon
  have hfound := h.found_perm (taken?_of_isWord hw) hk
  simp only [Tables.accepts_textRow] at hfound
  exact ⟨_, _, hon, h.lockstep.nodup_found w k, hfound⟩

theorem Represents.search_nothing (h : Represents t cat) (ht : s.disk.tables? = some t) (hw : IsWord w)
    (hrange : k < integerBound) (hnone : ∀ e ∈ cat.entities, ¬ e.Mentions w) :
    ∃ s', (search (.whole w) k).on s = (.ok [], s') := by
  obtain ⟨events, hon⟩ := on_search ht h.isSound (.whole w) k
  have hfound : t.found w k = [] := by
    rw [List.eq_nil_iff_forall_not_mem]
    intro x hx
    obtain ⟨hmem, haccepts⟩ := h.lockstep.mem_found (taken?_of_isWord hw) hx
    rw [Tables.accepts_textRow, decide_eq_true_eq] at haccepts
    exact hnone _ (h.perm.mem_iff.mpr (List.mem_map_of_mem hmem)) haccepts
  rw [t.searched_of_not_blank hw.allBlank hrange, hfound] at hon
  exact ⟨_, hon⟩

end

/-- A change that takes away all that mentions a word, and brings nothing that does, leaves nothing that
does. -/
theorem Catalog.not_mentions_after {t t' : Tables} {cat : Catalog} {c : Change} {word : String}
    (h : Represents t cat) (h' : Represents t' (cat.after c))
    (hdrops : ∀ e ∈ cat.entities, e.Mentions word → Drops c e.path)
    (hbrings : ∀ e ∈ brought c, ¬ e.Mentions word) :
    ∀ e ∈ (cat.after c).entities, ¬ e.Mentions word := by
  intro e he hmentions
  rcases brought_or_kept (h'.mem_full.mp (h'.perm.mem_iff.mp he)) with hnew | ⟨hold, hkept⟩
  · exact hbrings e hnew hmentions
  · exact hkept (hdrops e (h.perm.mem_iff.mpr (h.mem_full.mpr hold)) hmentions)

/-- However a store came about from one that was never built, a word finds in it each stored entity that
mentions the word, once, and nothing else.  After a further change that takes away all of these and brings
no other, it finds nothing. -/
theorem search_of_word {s : Store} (hs : s.disk.tables? = none) {calls : List Call}
    (hcalls : ∀ call ∈ calls, IsNormal call.asked) {t : Tables} (ht : (run s calls).disk.tables? = some t)
    {cat : Catalog} (hc : cat = Catalog.ofRun ∅ s calls) {w : String} (hw : IsWord w) {k : Int}
    (hk : cat.size ≤ k) (hrange : k < integerBound) :
    (∃ hits s', (search (.whole w) k).on (run s calls) = (.ok hits, s') ∧ (hits.map (·.entity.id)).Nodup ∧
        (hits.map Hit.entity).Perm ((cat.entities.filter (·.Mentions w)).map Tables.row)) ∧
      ∀ (call : Call) (n : Nat) (s' : Store), IsNormal call.asked →
        (change call.asked).on { run s calls with isLocked := call.isLocked } = (.ok n, s') →
        (∀ e ∈ cat.entities, e.Mentions w → Drops call.asked e.path) →
        (∀ e ∈ brought call.asked, ¬ e.Mentions w) → ∃ s'', (search (.whole w) k).on s' = (.ok [], s'') := by
  subst hc
  -- what the catalog starts from does not matter for a store without tables
  have hnone : ∀ t, s.disk.tables? = some t → Represents t ∅ := by
    intro t ht
    rw [hs] at ht
    cases ht
  have h := represents_run hnone hcalls
  refine ⟨(h t ht).search_word ht hw hk hrange, ?_⟩
  intro call n s' hcall hon hdrops hbrings
  obtain ⟨n', t', s₁, hon', hwrote, heffect⟩ | ⟨e, s₁, hon', -⟩ :=
    change_cases call.asked { run s calls with isLocked := call.isLocked }
  · rw [hon] at hon'
    obtain ⟨-, rfl⟩ := Prod.mk.inj hon'
    have hafter := heffect.represents h hcall
    apply hafter.search_nothing hwrote.tables? hw hrange
    exact Catalog.not_mentions_after (h t ht) hafter hdrops hbrings
  · rw [hon] at hon'
    cases (Prod.mk.inj hon').1

def annotated : Entity :=
  { id := "x", container := "A", name := "f", arity := 1, path := "a.ex", startLine := 1, endLine := 2
    lexicalText := "Keep it and near", references := ["B.g/0"] }

/-- An entity that is built, and another in the same file that does not mention the word. -/
def annotating : List Call :=
  [{ asked := .rebuild [.entity annotated] },
    { asked := .merge [.entity { annotated with id := "y", path := "b.ex", lexicalText := "or not" }] [] }]

theorem search_of_annotated :
    let s' := run { path := "index.db" } annotating
    (∃ hits s'', (search (.whole "AND") 2).on s' = (.ok hits, s'') ∧
        hits.map Hit.entity = [Tables.row annotated]) ∧
      ∃ n s'' s₃, (change (.purge (.whole "a.ex"))).on { s' with isLocked := false } = (.ok n, s'') ∧
        (search (.whole "AND") 2).on s'' = (.ok [], s₃) := by
  obtain ⟨t, ht⟩ : ∃ t, (run { path := "index.db" } annotating).disk.tables? = some t :=
    Option.isSome_iff_exists.mp (by decide +kernel)
  have hcalls : ∀ call ∈ annotating, IsNormal call.asked := by decide
  have hword : FullText.IsWord "AND" := by decide
  have htries := tries_of_run (s := { path := "index.db" }) rfl ht
  obtain ⟨⟨hits, s₁, hon, -, hperm⟩, hgone⟩ :=
    search_of_word (s := { path := "index.db" }) rfl hcalls ht rfl hword (k := 2)
      (by decide +kernel) (by decide)
  have hmap : ((Catalog.ofRun ∅ { path := "index.db" } annotating).entities.filter
      (·.Mentions "AND")).map Tables.row = [Tables.row annotated] := by
    decide +kernel
  have hdrops : ∀ e ∈ (Catalog.ofRun ∅ { path := "index.db" } annotating).entities,
      e.Mentions "AND" → Drops (.purge (.whole "a.ex")) e.path := by
    decide +kernel
  rw [hmap, List.perm_singleton] at hperm
  -- what follows does not depend on what the run made of the store
  generalize run { path := "index.db" } annotating = r at ht htries hon hgone ⊢
  refine ⟨⟨hits, s₁, hon, hperm⟩, ?_⟩
  obtain ⟨n, s'', hpurge⟩ :=
    on_purge_ok (s := { r with isLocked := false }) htries rfl ht "a.ex"
  obtain ⟨s₃, hsearch⟩ := hgone { asked := .purge (.whole "a.ex") } n s'' trivial hpurge hdrops nofun
  exact ⟨n, s'', s₃, hpurge, hsearch⟩

/-- A number that the tables cannot hold is refused though there are fewer entities and one of them
mentions the word, and a store that was never built is not searched at all. -/
theorem search_refused_of_annotated :
    let s' := run { path := "index.db" } annotating
    let cat := Catalog.ofRun ∅ { path := "index.db" } annotating
    (cat.size < integerBound ∧ (∃ e ∈ cat.entities, e.Mentions "AND") ∧
        ∃ s'', (search (.whole "AND") integerBound).on s' = (.error (.mishap .integerTooLarge), s'')) ∧
      ∃ s'', (search (.whole "AND") 1).on { path := "index.db" } =
        (.error (.failure (.schemaMissing "index.db")), s'') := by
  intro s' cat
  obtain ⟨t, ht⟩ : ∃ t, s'.disk.tables? = some t := Option.isSome_iff_exists.mp (by decide +kernel)
  refine ⟨⟨by decide +kernel, by decide +kernel, ?_⟩, _, rfl⟩
  exact ⟨_, on_search_of_not_inRange ht (by decide) (by decide) (by decide)⟩

end Store

end CodeIndex
