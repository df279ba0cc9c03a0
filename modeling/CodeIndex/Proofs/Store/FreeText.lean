import CodeIndex.Proofs.Store.WordSearch

/-!
# Searching for any text

Any text that can be encoded can be searched for.  What is no query is searched for by its words, and has
none where it has no word character.  Whichever query comes of it, what is found is no more than was asked
for, and each hit is a stored entity as it was stored, without its references, and is none of the other
hits.  A text with unpaired surrogates does not even reach the database engine.
-/

namespace CodeIndex

/-! ## Texts without words -/

theorem FullText.quoteQuery_of_wordless {text : String} (h : ∀ c ∈ text.toList, Text.isWord c = false) :
    quoteQuery text = "" := by
  rw [quoteQuery, Text.words, Text.runsOf_eq_nil h]
  rfl

namespace Store

theorem taken?_of_wordless {text : String} (hquery : FullText.Query.ofString? text = none)
    (h : ∀ c ∈ text.toList, Text.isWord c = false) : taken? text = none := by
  rw [taken?, hquery, FullText.quoteQuery_of_wordless h]
  rfl

/-! ## What any text finds -/

section

variable {t : Tables} {k : Int} {text : String}

theorem Tables.searched_whole (t : Tables) (text : String) (hrange : k < integerBound) :
    t.searched (.whole text) k = .ok (if Text.allBlank text then [] else t.found text k) := by
  cases hblank : Text.allBlank text with
  | false => exact t.searched_of_not_blank hblank hrange
  | true =>
    have hasks : (isBlank (.whole text) || decide (k ≤ 0)) = true := by
      rw [show isBlank (.whole text) = true from hblank, Bool.true_or]
    rw [searched, if_pos hasks]
    rfl

theorem Represents.exists_of_mem {cat : Catalog} (h : Represents t cat) {e : Entity}
    (he : e ∈ t.entities) : ∃ x ∈ cat.entities, e = Tables.row x := by
  exact ⟨_, h.perm.mem_iff.mpr (List.mem_map_of_mem he), (h.lockstep.row_eq he _).symm⟩

end

/-- However a store came about from one that was never built, any text that can be encoded can be searched
for in it, up to any number that the tables take.  The store is as before, and there are no hits for a blank
text, nor for one that is no query and has no word character.  A text that no encoding has ends the search,
which does not touch the store. -/
theorem search_of_text {s : Store} (hs : s.disk.tables? = none) {calls : List Call}
    (hcalls : ∀ call ∈ calls, IsNormal call.asked) {t : Tables}
    (ht : (run s calls).disk.tables? = some t) {cat : Catalog} (hc : cat = Catalog.ofRun ∅ s calls)
    {k : Int} (hk : 1 ≤ k) (hrange : k < integerBound) :
    (∀ text : String, ∃ hits s', (search (.whole text) k).on (run s calls) = (.ok hits, s') ∧
      s'.disk = (run s calls).disk ∧ (hits.length : Int) ≤ k ∧ (hits.map (·.entity.id)).Nodup ∧
      (∀ hit ∈ hits, ∃ e ∈ cat.entities, hit.entity = { e with references := [] }) ∧
      ((Text.allBlank text = true ∨ FullText.Query.ofString? text = none ∧
        ∀ c ∈ text.toList, Text.isWord c = false) → hits = [])) ∧
      ∀ points, (search (.broken points) k).on (run s calls) =
        (.error (.mishap (.notEncodable points)), run s calls) := by
  subst hc
  refine ⟨fun text => ?_, fun points => on_search_broken ht points (by omega)⟩
  -- what the catalog starts from does not matter for a store without tables
  have hnone : ∀ t, s.disk.tables? = some t → Represents t ∅ := by
    intro t ht
    rw [hs] at ht
    cases ht
  have h := represents_run hnone hcalls t ht
  obtain ⟨events, hon⟩ := on_search ht h.isSound (.whole text) k
  rw [t.searched_whole text hrange] at hon
  have hlength := t.length_found_le text k
  have hfound := h.lockstep.found_subperm text k
  refine ⟨_, _, hon, rfl, ?_, ?_, ?_, ?_⟩
  · split
    · rw [List.length_nil]
      omega
    · omega
  · split
    · exact List.nodup_nil
    · obtain ⟨found, hperm, hsublist⟩ := hfound
      have hids := (hperm.map Entity.id).nodup_iff.mp
        (h.lockstep.nodup_ids.sublist (hsublist.map _))
      rwa [List.map_map] at hids
  · split
    · nofun
    · exact fun hit hhit => h.exists_of_mem (hfound.subset (List.mem_map_of_mem hhit))
  · rintro (hblank | ⟨hquery, hwordless⟩)
    · rw [if_pos hblank]
    · rw [Tables.found, taken?_of_wordless hquery hwordless, ite_self]

/-- One text is searched for by its word, since it is no query, and the other has no word either. -/
theorem search_of_text_unclosed :
    let s' := run { path := "index.db" } annotating
    (∃ hits s'', (search (.whole "near (") 1).on s' = (.ok hits, s'') ∧ s''.disk = s'.disk ∧
        hits.length ≤ 1) ∧
      ∃ s'', (search (.whole "((") 3).on s' = (.ok [], s'') := by
  obtain ⟨t, ht⟩ : ∃ t, (run { path := "index.db" } annotating).disk.tables? = some t :=
    Option.isSome_iff_exists.mp (by decide +kernel)
  have hcalls : ∀ call ∈ annotating, IsNormal call.asked := by decide
  constructor
  · obtain ⟨hits, s'', hon, hdisk, hlength, -⟩ :=
      (search_of_text (s := { path := "index.db" }) rfl hcalls ht rfl (k := 1) (by decide)
        (by decide)).1 "near ("
    exact ⟨hits, s'', hon, hdisk, by omega⟩
  · obtain ⟨hits, s'', hon, -, -, -, -, hempty⟩ :=
      (search_of_text (s := { path := "index.db" }) rfl hcalls ht rfl (k := 3) (by decide)
        (by decide)).1 "(("
    have hwordless : ∀ c ∈ "((".toList, Text.isWord c = false := by
      intro c hc
      obtain rfl : c = '(' := by simpa using hc
      decide
    have hnone : hits = [] := hempty (.inr ⟨by decide +kernel, hwordless⟩)
    exact ⟨s'', hnone ▸ hon⟩

/-- An unpaired surrogate, looked for where the store is built. -/
theorem search_refused_of_unpaired :
    let s' := run { path := "index.db" } annotating
    (∃ t, s'.disk.tables? = some t) ∧
      (search (.broken [0xD800]) 5).on s' = (.error (.mishap (.notEncodable [0xD800])), s') := by
  intro s'
  obtain ⟨t, ht⟩ : ∃ t, s'.disk.tables? = some t := Option.isSome_iff_exists.mp (by decide +kernel)
  exact ⟨⟨t, ht⟩, on_search_broken ht [0xD800] (by decide)⟩

end Store

end CodeIndex
