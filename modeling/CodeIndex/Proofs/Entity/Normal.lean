import CodeIndex.Entity.OfValue
import CodeIndex.Proofs.Entity.Clauses
import CodeIndex.Proofs.Validation.Checked

/-!
# Entities in normal form

What the check of a value lets through has an identity and a path, does not end before it starts, and
names each reference once.  Joining clauses keeps this, and an entity that has it passes the check again
unchanged: reading it back from its own fields gives the same entity.
-/

namespace CodeIndex

open Validation Entity

/-! ## Checks that pass -/

theorem nonEmptyText_eq_ok {v : Value} {s : String} (h : nonEmptyText v = .ok s) : s ≠ "" := by
  obtain ⟨s', -, hs⟩ := Checked.andThen_eq_ok_iff.mp h
  split at hs
  · cases hs
  · rename_i hne
    injection hs with hs
    rw [← hs]
    simpa using hne

theorem text_value (w : Writing) : text (Textual.value w) = .ok w := by
  cases w <;> rfl

/-! ## Normal form -/

/-- A draft as the check of a value leaves it. -/
structure Draft.IsNormal (d : Draft) : Prop where
  id : d.id ≠ .whole ""
  path : ∃ s ∈ d.path.whole?, s ≠ ""
  lines : d.startLine ≤ d.endLine
  references : d.references.Nodup

instance (d : Draft) : Decidable d.IsNormal :=
  decidable_of_iff (d.id ≠ .whole "" ∧ (∃ s ∈ d.path.whole?, s ≠ "") ∧ d.startLine ≤ d.endLine ∧
      d.references.Nodup)
    ⟨fun ⟨hid, hpath, hlines, hreferences⟩ => ⟨hid, hpath, hlines, hreferences⟩,
      fun h => ⟨h.id, h.path, h.lines, h.references⟩⟩

/-- The same of an entity whose texts are whole. -/
structure Entity.IsNormal (e : Entity) : Prop where
  id : e.id ≠ ""
  path : e.path ≠ ""
  lines : e.startLine ≤ e.endLine
  references : e.references.Nodup

instance (e : Entity) : Decidable e.IsNormal :=
  decidable_of_iff (e.id ≠ "" ∧ e.path ≠ "" ∧ e.startLine ≤ e.endLine ∧ e.references.Nodup)
    ⟨fun ⟨hid, hpath, hlines, hreferences⟩ => ⟨hid, hpath, hlines, hreferences⟩,
      fun h => ⟨h.id, h.path, h.lines, h.references⟩⟩

theorem Entity.isNormal_draft {e : Entity} : e.draft.IsNormal ↔ e.IsNormal := by
  have hwhole : Function.Injective Writing.whole := fun _ _ => Writing.whole.inj
  constructor
  · intro h
    obtain ⟨s, hs, hpath⟩ := h.path
    obtain rfl : e.path = s := Option.some.inj hs
    exact ⟨fun hid => h.id (congrArg Writing.whole hid), hpath, h.lines, h.references.of_map _⟩
  · intro h
    exact ⟨fun hid => h.id (hwhole hid), ⟨e.path, rfl, h.path⟩, h.lines, h.references.map hwhole⟩

theorem Digest.hexWord_ne_nil (w : UInt32) : Digest.hexWord w ≠ [] := by
  unfold Digest.hexWord
  cases Nat.toDigits 16 w.toNat <;> simp

theorem Digest.sha256_ne_empty (s : String) : Digest.sha256 s ≠ "" := by
  unfold Digest.sha256
  intro h
  rw [String.ofList_eq_empty_iff, List.flatMap_eq_nil_iff] at h
  exact hexWord_ne_nil _ (h _ List.mem_cons_self)

theorem Entity.le_lastLine (start : Nat) (stop : Option Int) : start ≤ Entity.lastLine start stop := by
  unfold Entity.lastLine
  cases stop with
  | none => exact Nat.le_refl _
  | some n =>
    simp only
    split <;> omega

theorem Entity.nodup_of_referencesOf {v : Value} {references : List Writing}
    (h : Entity.referencesOf v = .ok references) : references.Nodup := by
  cases v with
  | null =>
    injection h with h
    subst h
    exact List.nodup_nil
  | list items =>
    injection h with h
    subst h
    exact Text.nodup_distinct _
  | _ => cases h

/-- The members of a map pass their checks, and a draft is what they say.  Its identity is the one that it
states, or else a hash. -/
structure Draft.IsReadFrom (m : Value.Members) (d : Draft) : Prop where
  id : ∃ id, member m "id" text "" = .ok id ∧
    ((id ≠ .whole "" ∧ d.id = id) ∨
      id = .whole "" ∧ ∃ s, describedBy d = .whole s ∧ d.id = .whole (Digest.sha256 s))
  container : requiredSpelled m ["container", "module"] text = .ok d.container
  name : required m "name" text = .ok d.name
  arity : required m "arity" natural = .ok d.arity
  kind : member m "kind" kindOf .definition = .ok d.kind
  path : ∃ s, required m "path" nonEmptyText = .ok s ∧ d.path = .whole s
  startLine : required m "start_line" natural = .ok d.startLine
  endLine : ∃ stop, member m "end_line" (optional int) none = .ok stop ∧
    d.endLine = lastLine d.startLine stop
  signature : member m "signature" (optional text) none = .ok d.signature
  doc : member m "doc" docOf none = .ok d.doc
  spec : member m "spec" docOf none = .ok d.spec
  lexicalText : member m "lexical_text" text "" = .ok d.lexicalText
  rawText : memberSpelled m ["raw_text", "struct_text"] (optional text) none = .ok d.rawText
  references : memberSpelled m ["references", "calls"] referencesOf [] = .ok d.references

theorem Entity.identified_eq_ok {input : Value} {b d : Draft} (h : identified input b = .ok d) :
    (b.id ≠ .whole "" ∧ d = b) ∨ (b.id = .whole "" ∧
      ∃ s, describedBy b = .whole s ∧ d = { b with id := .whole (Digest.sha256 s) }) := by
  unfold identified at h
  split at h
  · rename_i hid
    refine .inr ⟨by simpa using hid, ?_⟩
    cases hs : describedBy b with
    | whole s =>
      rw [hs] at h
      injection h with h
      exact ⟨s, rfl, h.symm⟩
    | broken points =>
      rw [hs] at h
      cases h
  · rename_i hid
    injection h with h
    exact .inl ⟨by simpa using hid, h.symm⟩

theorem Entity.identified_of_describedBy {input : Value} {d : Draft} {s : String}
    (hid : d.id = .whole "") (hs : describedBy d = .whole s) :
    identified input d = .ok { d with id := .whole (Digest.sha256 s) } := by
  unfold identified
  rw [if_pos (beq_iff_eq.mpr hid), hs]

theorem Draft.isReadFrom_of_ofMembers {m : Value.Members} {d : Draft}
    (h : Draft.ofMembers m = .ok d) : d.IsReadFrom m := by
  obtain ⟨b, hb, hd⟩ := Checked.andThen_eq_ok_iff.mp h
  obtain ⟨_, h₁, references, hreferences, rfl⟩ := Checked.seq_eq_ok_iff.mp hb
  obtain ⟨_, h₂, rawText, hrawText, rfl⟩ := Checked.seq_eq_ok_iff.mp h₁
  obtain ⟨_, h₃, lexicalText, hlexicalText, rfl⟩ := Checked.seq_eq_ok_iff.mp h₂
  obtain ⟨_, h₄, spec, hspec, rfl⟩ := Checked.seq_eq_ok_iff.mp h₃
  obtain ⟨_, h₅, doc, hdoc, rfl⟩ := Checked.seq_eq_ok_iff.mp h₄
  obtain ⟨_, h₆, signature, hsignature, rfl⟩ := Checked.seq_eq_ok_iff.mp h₅
  obtain ⟨_, h₇, endLine, hendLine, rfl⟩ := Checked.seq_eq_ok_iff.mp h₆
  obtain ⟨_, h₈, startLine, hstartLine, rfl⟩ := Checked.seq_eq_ok_iff.mp h₇
  obtain ⟨_, h₉, _, hwhole, rfl⟩ := Checked.seq_eq_ok_iff.mp h₈
  obtain ⟨path, hpath, rfl⟩ := Checked.map_eq_ok_iff.mp hwhole
  obtain ⟨_, h₁₀, kind, hkind, rfl⟩ := Checked.seq_eq_ok_iff.mp h₉
  obtain ⟨_, h₁₁, arity, harity, rfl⟩ := Checked.seq_eq_ok_iff.mp h₁₀
  obtain ⟨_, h₁₂, name, hname, rfl⟩ := Checked.seq_eq_ok_iff.mp h₁₁
  obtain ⟨_, h₁₃, container, hcontainer, rfl⟩ := Checked.seq_eq_ok_iff.mp h₁₂
  obtain ⟨id, hid, rfl⟩ := Checked.map_eq_ok_iff.mp h₁₃
  obtain ⟨hstated, rfl⟩ | ⟨hnone, s, hs, rfl⟩ := identified_eq_ok hd
  · exact ⟨⟨id, hid, .inl ⟨hstated, rfl⟩⟩, hcontainer, hname, harity, hkind, ⟨path, hpath, rfl⟩,
      hstartLine, ⟨endLine, hendLine, rfl⟩, hsignature, hdoc, hspec, hlexicalText, hrawText, hreferences⟩
  · exact ⟨⟨id, hid, .inr ⟨hnone, s, hs, rfl⟩⟩, hcontainer, hname, harity, hkind, ⟨path, hpath, rfl⟩,
      hstartLine, ⟨endLine, hendLine, rfl⟩, hsignature, hdoc, hspec, hlexicalText, hrawText, hreferences⟩

theorem Draft.IsReadFrom.isNormal {m : Value.Members} {d : Draft} (h : d.IsReadFrom m) :
    d.IsNormal where
  id := by
    obtain ⟨id, -, ⟨hne, hid⟩ | ⟨-, s, -, hid⟩⟩ := h.id
    · rwa [hid]
    · rw [hid]
      exact fun he => Digest.sha256_ne_empty s (Writing.whole.inj he)
  path := by
    obtain ⟨s, hs, hpath⟩ := h.path
    obtain ⟨v, -, hv⟩ := required_eq_ok_iff.mp hs
    exact ⟨s, by rw [hpath]; rfl, nonEmptyText_eq_ok hv⟩
  lines := by
    obtain ⟨stop, -, hstop⟩ := h.endLine
    rw [hstop]
    exact le_lastLine d.startLine stop
  references := by
    have hreferences := h.references
    unfold memberSpelled at hreferences
    split at hreferences
    · exact nodup_of_referencesOf (Checked.inside_eq_ok_iff.mp hreferences)
    · injection hreferences with hreferences
      rw [← hreferences]
      exact List.nodup_nil

theorem Draft.isNormal_of_ofValue {v : Value} {d : Draft} (h : Draft.ofValue v = .ok d) :
    d.IsNormal := by
  cases v with
  | map m => exact (isReadFrom_of_ofMembers h).isNormal
  | _ => cases h

/-- A value is an entity if it is the draft of one. -/
theorem Entity.ofValue_eq_ok_iff {v : Value} {e : Entity} :
    Entity.ofValue v = .ok e ↔ Draft.ofValue v = .ok e.draft := by
  unfold Entity.ofValue
  rw [Checked.andThen_eq_ok_iff]
  constructor
  · rintro ⟨d, hd, he⟩
    split at he
    · rename_i e' hwhole
      injection he with he
      rw [hd, whole?_eq_some_iff.mp hwhole, he]
    · cases he
  · intro h
    refine ⟨e.draft, h, ?_⟩
    rw [whole?_draft]

theorem Draft.IsNormal.join {a b : Draft} (ha : a.IsNormal) (hb : b.IsNormal) :
    Draft.IsNormal (Entity.join a b) where
  id := by
    rcases Entity.join_place a b with h | h
    · exact h.1 ▸ ha.id
    · exact h.1 ▸ hb.id
  path := by
    rcases Entity.join_place a b with h | h
    · exact h.2 ▸ ha.path
    · exact h.2 ▸ hb.path
  lines := by
    change min a.startLine b.startLine ≤ max a.endLine b.endLine
    have := ha.lines
    omega
  references := Text.nodup_distinct _

theorem Draft.IsNormal.mergeClauses {drafts : List Draft} (h : ∀ d ∈ drafts, d.IsNormal) :
    ∀ d ∈ mergeClauses drafts, Draft.IsNormal d :=
  forall_mem_mergeClauses (fun _ _ ha hb => ha.join hb) h

/-! ## Checking an entity again -/

theorem Entity.referencesOf_value {references : List Writing} (h : references.Nodup) :
    Entity.referencesOf (.list (references.map Textual.value)) = .ok references := by
  have hitems : (references.map Textual.value).map mentionOf = references := by
    rw [List.map_map]
    refine (List.map_congr_left fun w _ => ?_).trans (List.map_id _)
    cases w <;> rfl
  change Checked.ok (Text.distinct ((references.map Textual.value).map mentionOf)) = _
  rw [hitems, Text.distinct_of_nodup h]

theorem Entity.lastLine_of_le {start stop : Nat} (h : start ≤ stop) :
    Entity.lastLine start (some stop) = stop := by
  unfold Entity.lastLine
  simp only
  split <;> omega

theorem Entity.docOf_value? (w : Option Writing) : Entity.docOf (Textual.value? w) = .ok w := by
  rcases w with _ | (_ | _) <;> rfl

theorem Entity.kindOf_label (k : Kind) : Entity.kindOf (.text k.label) = .ok k := by
  cases k <;> rfl

theorem nonEmptyText_text {s : String} (h : s ≠ "") : nonEmptyText (.text s) = .ok s := by
  unfold nonEmptyText
  simp only [wholeText, Checked.andThen]
  rw [if_neg (by simpa using h)]

/-- A draft in normal form passes the check of its own fields unchanged. -/
theorem Draft.ofValue_toValue {d : Draft} (h : d.IsNormal) : Draft.ofValue d.toValue = .ok d := by
  have hend : optional int (.nat d.endLine) = .ok (some (d.endLine : Int)) := rfl
  obtain ⟨path, hpath, hne⟩ := h.path
  have hwhole : d.path = .whole path := by
    cases hd : d.path with
    | whole s =>
      rw [hd] at hpath
      exact congrArg Writing.whole (Option.some.inj hpath)
    | broken points =>
      rw [hd] at hpath
      cases hpath
  have hvalue : (Textual.value d.path : Value) = .text path := by rw [hwhole]; rfl
  change Draft.ofMembers d.toMembers = .ok d
  simp only [Draft.ofMembers, Entity.toMembers, member, required, requiredSpelled, memberSpelled,
    spelled?, Value.Members.get?, List.lookup_cons, String.reduceBEq, beq_self_eq_true, kindOf_label,
    natural_nat, hvalue, nonEmptyText_text hne, hend, docOf_value?, optional_text_value?, text_value,
    referencesOf_value h.references]
  change identified _ (build ..) = _
  simp only [build, lastLine_of_le h.lines, ← hwhole]
  exact if_neg (by simpa using h.id)

/-- And so does an entity in normal form. -/
theorem Entity.ofValue_toValue {e : Entity} (h : e.IsNormal) : Entity.ofValue e.toValue = .ok e := by
  rw [ofValue_eq_ok_iff, ← toValue_draft]
  exact Draft.ofValue_toValue (isNormal_draft.mpr h)

end CodeIndex
