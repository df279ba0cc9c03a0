import CodeIndex.Proofs.Entity.Normal
import CodeIndex.Proofs.Record.Framing
import CodeIndex.Proofs.Value.Limits
import CodeIndex.Proofs.Value.Writing

/-!
# Entities that are dumped and read back

What passes the check of an entity is brought into one form, whatever the spelling that it came in, and
that form is stable: the members of the entity pass the check again and give the same entity, and so does
any line of JSON that spells them.  The line that is written for them is one, since the numbers of an
entity are no longer than those that were read, and its texts are whole or were read.
-/

namespace CodeIndex

open Value (IsPrintable Writable tooLong)

def Writing.IsRead (w : Writing) : Prop :=
  w.value.IsRead

/-! ## Numbers that pass their check -/

namespace Validation

theorem signed_lt {negative : Bool} {digits : List Char} {v : Value} {n : Int}
    (h : (if digits.isEmpty || !digits.all Text.isAsciiDigit ||
        (digits.head? == some '0' && digits.length != 1) then .complain .intParsing v
      else if 4300 < digits.length then .complain .intParsingSize v
      else .ok (if negative then -(Decimal.natOfDigits digits : Int)
        else Decimal.natOfDigits digits)) = Checked.ok n) : n.natAbs < tooLong := by
  split at h
  · cases h
  · rename_i hdigits
    split at h
    · cases h
    · rename_i hlimit
      simp only [Bool.or_eq_true, not_or, Bool.not_eq_true', Bool.not_eq_false] at hdigits
      injection h with h
      exact h ▸ Value.natAbs_lt_tooLong negative (List.all_eq_true.mp hdigits.1.2) (Nat.le_of_not_lt hlimit)

theorem intOfText_lt {s : String} {n : Int} (h : intOfText s = .ok n) :
    n.natAbs < tooLong := by
  unfold intOfText at h
  dsimp only at h
  split at h
  · cases h
  · split at h
    · exact @signed_lt true _ _ _ h
    · exact @signed_lt false _ _ _ h

theorem pow_le_tooLong : Nat.pow 2 63 ≤ tooLong :=
  calc Nat.pow 2 63 ≤ Nat.pow 10 63 := Nat.pow_le_pow_left (by decide) 63
    _ ≤ tooLong := Value.ten_pow_le_tooLong (by decide)

theorem intOfFloat_lt {x : Float} {n : Int} (h : intOfFloat x = .ok n) :
    n.natAbs < tooLong := by
  unfold intOfFloat at h
  split at h
  · cases h
  · split at h
    · cases h
    · split at h
      · rename_i hless
        injection h with h
        rw [← h]
        exact Nat.lt_of_lt_of_le hless pow_le_tooLong
      · cases h

/-- A number that passes has no more digits than the longest that is read. -/
theorem int_lt {v : Value} {n : Int} (hv : v.IsRead) (h : int v = .ok n) :
    n.natAbs < tooLong := by
  cases v with
  | int m =>
    injection h with h
    cases hv with
    | int hm => exact h ▸ hm
  | bool b =>
    injection h with h
    have hbit : n.natAbs < Nat.pow 2 63 := by
      rw [← h]
      cases b <;> decide
    exact Nat.lt_of_lt_of_le hbit pow_le_tooLong
  | float x => exact intOfFloat_lt h
  | text s => exact intOfText_lt h
  | _ => cases h

theorem natural_lt {v : Value} {n : Nat} (hv : v.IsRead) (h : natural v = .ok n) :
    n < tooLong := by
  unfold natural at h
  change (intFrom 0 v).map Int.toNat = .ok n at h
  cases hint : intFrom 0 v with
  | faults fs =>
    rw [hint] at h
    cases h
  | ok m =>
    rw [hint] at h
    injection h with h
    obtain ⟨k, hk, hbound⟩ := Checked.andThen_eq_ok_iff.mp hint
    have hless := int_lt hv hk
    split at hbound
    · cases hbound
    · injection hbound with hbound
      omega

theorem optional_int_lt {v : Value} {stop : Option Int} (hv : v.IsRead)
    (h : optional int v = .ok stop) : ∀ n ∈ stop, n.natAbs < tooLong := by
  unfold optional at h
  split at h
  · injection h with h
    rw [← h]
    exact nofun
  · cases hint : int v with
    | faults fs =>
      rw [hint] at h
      cases h
    | ok n =>
      rw [hint] at h
      injection h with h
      rw [← h]
      intro m hm
      obtain rfl := Option.some.inj hm
      exact int_lt hv hint

/-! ## Texts that pass their check -/

section

variable {α : Type} {m : Value.Members} {P : α → Prop} {check : Value → Checked α} {a : α}
  (hm : ∀ (key : String) (v : Value), m.get? key = some v → v.IsRead)
  (hcheck : ∀ (v : Value) (a : α), v.IsRead → check v = .ok a → P a)

include hm hcheck

theorem of_required {name : String} (h : required m name check = .ok a) : P a := by
  obtain ⟨v, hget, hv⟩ := required_eq_ok_iff.mp h
  exact hcheck v a (hm name v hget) hv

theorem of_member {name : String} {default : α} (h : member m name check default = .ok a)
    (hdefault : P default) : P a := by
  rw [member_eq_ok_iff] at h
  split at h
  · rename_i v hget
    exact hcheck v a (hm name v hget) h
  · exact h ▸ hdefault

omit hm hcheck in
theorem get?_of_spelled? {names : List String} {name : String} {v : Value}
    (h : spelled? m names = some (name, v)) : m.get? name = some v := by
  induction names with
  | nil => cases h
  | cons first rest ih =>
    rw [spelled?] at h
    split at h
    · rename_i w hget
      obtain ⟨rfl, rfl⟩ := Prod.mk.inj (Option.some.inj h)
      exact hget
    · exact ih h

theorem of_requiredSpelled {names : List String} (h : Entity.requiredSpelled m names check = .ok a) :
    P a := by
  unfold Entity.requiredSpelled at h
  split at h
  · rename_i name v hspelled
    exact hcheck v a (hm name v (get?_of_spelled? hspelled)) (Checked.inside_eq_ok_iff.mp h)
  · cases h

theorem of_memberSpelled {names : List String} {default : α}
    (h : Entity.memberSpelled m names check default = .ok a) (hdefault : P default) : P a := by
  unfold Entity.memberSpelled at h
  split at h
  · rename_i name v hspelled
    exact hcheck v a (hm name v (get?_of_spelled? hspelled)) (Checked.inside_eq_ok_iff.mp h)
  · injection h with h
    exact h ▸ hdefault

end

theorem isRead_of_text (v : Value) (w : Writing) (hv : v.IsRead) (h : text v = .ok w) :
    w.IsRead := by
  cases v with
  | text s =>
    injection h with h
    exact h ▸ hv
  | broken points =>
    injection h with h
    exact h ▸ hv
  | _ => cases h

theorem isRead_of_optional_text (v : Value) (w : Option Writing) (hv : v.IsRead)
    (h : optional text v = .ok w) : ∀ t ∈ w, t.IsRead := by
  unfold optional at h
  split at h
  · injection h with h
    exact h ▸ nofun
  · cases htext : text v with
    | faults fs =>
      rw [htext] at h
      cases h
    | ok t =>
      rw [htext] at h
      injection h with h
      intro t' ht'
      obtain rfl := Option.some.inj (h.trans ht')
      exact isRead_of_text v t hv htext

theorem isRead_of_docOf (v : Value) (w : Option Writing) (hv : v.IsRead)
    (h : Entity.docOf v = .ok w) : ∀ t ∈ w, t.IsRead := by
  unfold Entity.docOf at h
  split at h <;> injection h with h <;> subst h
  · exact nofun
  all_goals
    intro t ht
    obtain rfl := Option.some.inj ht
    first | exact hv | exact Value.IsRead.text _

theorem isRead_mentionOf {v : Value} (hv : v.IsRead) : (Entity.mentionOf v).IsRead := by
  unfold Entity.mentionOf
  split
  · exact hv
  · exact Value.IsRead.text _

theorem isRead_of_referencesOf (v : Value) (references : List Writing) (hv : v.IsRead)
    (h : Entity.referencesOf v = .ok references) : ∀ t ∈ references, t.IsRead := by
  unfold Entity.referencesOf at h
  split at h
  · injection h with h
    exact h ▸ List.forall_mem_nil _
  · rename_i items
    injection h with h
    subst h
    intro t ht
    rw [Text.mem_distinct, List.mem_map] at ht
    obtain ⟨item, hitem, rfl⟩ := ht
    cases hv with
    | list hitems => exact isRead_mentionOf (hitems item hitem)
  · cases h

end Validation

open Validation Entity

namespace Draft

/-- No number of a draft has more digits than are read, and its texts are as those that were read. -/
structure IsWritable (d : Draft) : Prop where
  arity : d.arity < tooLong
  startLine : d.startLine < tooLong
  endLine : d.endLine < tooLong
  texts : ∀ t ∈ d.texts, t.IsRead

theorem lastLine_lt {start limit : Nat} {stop : Option Int} (hstart : start < limit)
    (hstop : ∀ n ∈ stop, n.natAbs < limit) : lastLine start stop < limit := by
  unfold lastLine
  cases stop with
  | none => exact hstart
  | some n =>
    have hn := hstop n rfl
    dsimp only
    split <;> omega

theorem forall_mem_none {τ : Type} {P : τ → Prop} (t : τ) (h : t ∈ (none : Option τ)) : P t :=
  absurd h (Option.not_mem_none t)

/-- A draft that was read from values as the reader gives them can be written. -/
theorem IsReadFrom.isWritable {m : Value.Members} {d : Draft} (h : d.IsReadFrom m)
    (hm : ∀ (key : String) (v : Value), m.get? key = some v → v.IsRead) : d.IsWritable where
  arity := of_required hm (P := (· < tooLong)) (fun _ _ => natural_lt) h.arity
  startLine := of_required hm (P := (· < tooLong)) (fun _ _ => natural_lt) h.startLine
  endLine := by
    -- the last line is the first, if that is later than the one that was read
    obtain ⟨stop, hstop, hend⟩ := h.endLine
    rw [hend]
    refine lastLine_lt (of_required hm (P := (· < tooLong)) (fun _ _ => natural_lt) h.startLine) ?_
    exact of_member hm (P := fun stop : Option Int => ∀ n ∈ stop, n.natAbs < tooLong)
      (fun _ _ => optional_int_lt) hstop forall_mem_none
  texts := by
    have hid : d.id.IsRead := by
      obtain ⟨id, hid, ⟨-, he⟩ | ⟨-, s, -, he⟩⟩ := h.id
      · rw [he]
        exact of_member hm isRead_of_text hid (Value.IsRead.text "")
      · rw [he]
        exact .text _
    have hpath : d.path.IsRead := by
      obtain ⟨s, -, he⟩ := h.path
      rw [he]
      exact Value.IsRead.text _
    simp only [Entity.texts, List.forall_mem_append, List.forall_mem_cons, Option.mem_toList]
    exact ⟨⟨⟨⟨⟨⟨hid, of_requiredSpelled hm isRead_of_text h.container,
      of_required hm isRead_of_text h.name, hpath,
      of_member hm isRead_of_text h.lexicalText (Value.IsRead.text ""), List.forall_mem_nil _⟩,
      of_member hm isRead_of_optional_text h.signature forall_mem_none⟩,
      of_member hm isRead_of_docOf h.doc forall_mem_none⟩, of_member hm isRead_of_docOf h.spec forall_mem_none⟩,
      of_memberSpelled hm isRead_of_optional_text h.rawText forall_mem_none⟩,
      of_memberSpelled hm isRead_of_referencesOf h.references (List.forall_mem_nil _)⟩

/-! ## The members of a draft -/

theorem nodup_keys_toMembers (d : Draft) : d.toMembers.keys.Nodup := by
  have hkeys : d.toMembers.keys = ["id", "container", "name", "arity", "kind", "path", "start_line",
      "end_line", "signature", "doc", "spec", "lexical_text", "raw_text", "references"] := rfl
  rw [hkeys]
  decide

theorem writable_value {w : Writing} (h : w.IsRead) (depth : Nat) :
    Writable depth (.value w.value) := by
  cases w with
  | whole s => exact .text s
  | broken points =>
    cases h with
    | broken hsurrogate h => exact .broken hsurrogate h

theorem writable_value? {w : Option Writing} (h : ∀ t ∈ w, t.IsRead) (depth : Nat) :
    Writable depth (.value (Textual.value? w)) := by
  cases w with
  | none => exact .null
  | some t => exact writable_value (h t rfl) depth

theorem IsWritable.writable {d : Draft} (h : d.IsWritable) (depth : Nat) :
    Writable (depth + 2) (.value d.toValue) := by
  have hnat : ∀ {n : Nat}, n < tooLong → Writable (depth + 1) (.value (.nat n)) :=
    fun hn => .int hn
  have htexts := h.texts
  simp only [Entity.texts, List.forall_mem_append, List.forall_mem_cons, Option.mem_toList] at htexts
  obtain ⟨⟨⟨⟨⟨⟨hid, hcontainer, hname, hpath, hlexical, -⟩, hsignature⟩, hdoc⟩, hspec⟩, hraw⟩,
    hreferences⟩ := htexts
  refine .map d.nodup_keys_toMembers (.members_of_forall ?_)
  simp only [List.forall_mem_cons]
  exact ⟨writable_value hid _, writable_value hcontainer _, writable_value hname _, hnat h.arity,
    .text _, writable_value hpath _, hnat h.startLine, hnat h.endLine, writable_value? hsignature _,
    writable_value? hdoc _, writable_value? hspec _, writable_value hlexical _, writable_value? hraw _,
    .list_of_forall (List.forall_mem_map.mpr fun t ht => writable_value (hreferences t ht) _),
    List.forall_mem_nil _⟩

theorem isLineBreak_of_isPrintable {c : Char} (h : IsPrintable c) : Text.isLineBreak c = false := by
  obtain ⟨hleast, hgreatest⟩ := h
  unfold Text.isLineBreak
  simp only [Bool.or_eq_false_iff, Bool.and_eq_false_iff, decide_eq_false_iff_not,
    beq_eq_false_iff_ne]
  omega

/-- The line that is written for a draft spells its members, and is one line. -/
theorem IsWritable.isSpelling {d : Draft} (h : d.IsWritable) {depth : Nat} (hdepth : 2 ≤ depth) :
    IsSpelling depth d.toMembers d.toValue.json ∧
      ∀ c ∈ d.toValue.json.toList, Text.isLineBreak c = false := by
  have hnone : Value.Blank [] := by nofun
  -- the references, in a list among the members, are the deepest that a draft has
  obtain ⟨depth, rfl⟩ := Nat.exists_eq_add_of_le' hdepth
  have hwritable := h.writable depth
  constructor
  · refine ⟨[], d.toValue.json.toList, [], ?_, hnone, hnone, hwritable.spells 0⟩
    rw [List.nil_append, List.append_nil]
  · exact fun c hc => isLineBreak_of_isPrintable (hwritable.isPrintable 0 c hc)

/-- A line that spells the members of a draft in normal form is read as that draft. -/
theorem IsNormal.ofLine {d : Draft} (h : d.IsNormal) {depth : Nat} {s : String}
    (hs : IsSpelling depth d.toMembers s) (line : Option Int) (source : Option String) :
    Batch.ofLine s line source depth = { drafts := [d] } := by
  have hvalue : Reading.ofValue (.map d.toMembers) = .draft d := by
    unfold Reading.ofValue
    dsimp only
    rw [show Draft.ofValue (.map d.toMembers) = .ok d from ofValue_toValue h]
  unfold Batch.ofLine
  rw [Reading.ofLine_of_isSpelling hs, hvalue]
  rfl

/-- The normal form of members: an identity and a path that are not empty, a number of arguments and
lines that are not negative, and the last line not before the first; one of the kinds, in its newer
spelling; documentation that is a text or missing; and references without repeats. -/
structure IsNormalForm (m : Value.Members) : Prop where
  id : ∃ w : Writing, m.get? "id" = some w.value ∧ w ≠ .whole ""
  path : ∃ s, m.get? "path" = some (.text s) ∧ s ≠ ""
  arity : ∃ n : Int, m.get? "arity" = some (.int n) ∧ 0 ≤ n
  lines : ∃ first last : Int, m.get? "start_line" = some (.int first) ∧
    m.get? "end_line" = some (.int last) ∧ 0 ≤ first ∧ first ≤ last
  kind : ∃ k ∈ Kind.all, m.get? "kind" = some (.text k.label)
  texts : ∀ name ∈ ["doc", "spec"],
    m.get? name = some .null ∨ ∃ w : Writing, m.get? name = some w.value
  references : ∃ items : List Writing,
    m.get? "references" = some (.list (items.map Writing.value)) ∧ items.Nodup

/-- The members of a normal draft are in normal form. -/
theorem IsNormal.isNormalForm {d : Draft} (h : d.IsNormal) : IsNormalForm d.toMembers where
  id := ⟨d.id, rfl, h.id⟩
  path := by
    obtain ⟨s, hs, hne⟩ := h.path
    refine ⟨s, ?_, hne⟩
    change some d.path.value = _
    cases hpath : d.path with
    | whole t =>
      rw [hpath] at hs
      obtain rfl := Option.some.inj hs
      rfl
    | broken points =>
      rw [hpath] at hs
      cases hs
  arity := ⟨d.arity, rfl, Int.natCast_nonneg _⟩
  lines := ⟨d.startLine, d.endLine, rfl, rfl, Int.natCast_nonneg _, Int.ofNat_le.mpr h.lines⟩
  kind := ⟨d.kind, by cases d.kind <;> decide, rfl⟩
  texts := by
    have htext : ∀ w : Option Writing,
        some (Textual.value? w) = some .null ∨ ∃ t : Writing, some (Textual.value? w) = some t.value := by
      intro w
      cases w with
      | none => exact .inl rfl
      | some t => exact .inr ⟨t, rfl⟩
    rw [List.forall_mem_cons, List.forall_mem_singleton]
    exact ⟨htext d.doc, htext d.spec⟩
  references := ⟨d.references, rfl, h.references⟩

/-- What passes the check of an entity is brought into normal form, and stays in it.  The members of the
draft pass the check again, and are the same draft; so is every line of JSON that spells them.  For a map
that was read from JSON, such a line is the one that is written for the members. -/
theorem normalForm_of_ofValue {v : Value} {d : Draft} (h : Draft.ofValue v = .ok d) :
    IsNormalForm d.toMembers ∧ Draft.ofValue d.toValue = .ok d ∧
      (∀ s line source depth, IsSpelling depth d.toMembers s →
        Batch.ofLine s line source depth = { drafts := [d] }) ∧
      ∀ s depth, Value.ofJson? s depth = .ok v →
        (∀ c ∈ d.toValue.json.toList, Text.isLineBreak c = false) ∧
          ∀ line source depth, 2 ≤ depth →
            Batch.ofLine d.toValue.json line source depth = { drafts := [d] } := by
  have hnormal := isNormal_of_ofValue h
  refine ⟨hnormal.isNormalForm, ofValue_toValue hnormal, ?_, ?_⟩
  · exact fun s line source depth hs => hnormal.ofLine hs line source
  · intro s depth hs
    cases v with
    | map m =>
      have hread := isReadFrom_of_ofMembers h
      have hwritable : d.IsWritable := by
        cases Value.isRead_of_ofJson? hs with
        | map hm => exact hread.isWritable hm
      refine ⟨(hwritable.isSpelling (Nat.le_refl 2)).2, fun line source depth hdepth => ?_⟩
      exact hnormal.ofLine (hwritable.isSpelling hdepth).1 line source
    | _ => cases h

/-- A line in older spellings, with numbers that are texts, a repeated reference, a documentation that is
not a text, and a surrogate that stands alone. -/
def aliasedLine : String :=
  "\x7b\x22module\x22: \x22A\x22, \x22name\x22: \x22f\x22, \x22arity\x22: \x222\x22, " ++
    "\x22kind\x22: \x22macro\x22, \x22path\x22: \x22a.ex\x22, \x22start_line\x22: 3, " ++
    "\x22end_line\x22: \x221\x22, \x22doc\x22: [\x22\u00e9\x22], \x22spec\x22: \x22\\ud800\x22, " ++
    "\x22struct_text\x22: \x22f\x22, \x22calls\x22: [\x22B.g/0\x22, \x22B.g/0\x22, 5]\x7d"

def aliased : Draft :=
  { id := identity "A" "f" 2 "a.ex", container := "A", name := "f", arity := 2, kind := .macroDefinition
    path := "a.ex", startLine := 3, endLine := 3, doc := some (.whole "[\x22\\u00e9\x22]")
    spec := some (.broken [0xD800]), lexicalText := "", rawText := some (.whole "f")
    references := ["B.g/0", "5"] }

theorem normalForm_of_aliasedLine :
    ∃ v, Value.ofJson? aliasedLine = .ok v ∧ Draft.ofValue v = .ok aliased ∧
      IsNormalForm aliased.toMembers ∧ Draft.ofValue aliased.toValue = .ok aliased ∧
      ∀ line source, Batch.ofLine aliased.toValue.json line source = { drafts := [aliased] } := by
  have hread : ((Value.ofJson? aliasedLine).toOption.bind fun v => (Reading.ofValue v).draft?) =
      some aliased := by
    decide +kernel
  obtain ⟨v, hv, hdraft⟩ := Option.bind_eq_some_iff.mp hread
  have hjson : Value.ofJson? aliasedLine = .ok v := by
    cases h : Value.ofJson? aliasedLine with
    | error fault =>
      rw [h] at hv
      cases hv
    | ok w =>
      rw [h] at hv
      rw [Option.some.inj hv]
  have hchecked : Draft.ofValue v = .ok aliased := Reading.eq_ok_of_ofValue hdraft
  obtain ⟨hform, hagain, -, hline⟩ := normalForm_of_ofValue hchecked
  exact ⟨v, hjson, hchecked, hform, hagain, fun line source =>
    (hline aliasedLine _ hjson).2 line source _ (by decide)⟩

end Draft

end CodeIndex
