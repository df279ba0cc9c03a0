import CodeIndex.Proofs.Entity.Grouping

/-!
# Identities and what they describe

The text that an identity hashes joins a container, a name, an arity and a path with bars.  A name may have
bars of its own.  The container ends at the first bar all the same, the path begins behind the last, and
the arity behind the last one before it, so the text says what it was made of.  Records that state no
identity are then clauses of one entity exactly if they describe the same definition, as long as the hash
tells their texts apart.
-/

namespace CodeIndex

/-! ## Texts joined with bars -/

section

variable {α : Type} {a : α} {xs xs' ys ys' : List α}

theorem append_cons_inj_of_first (h : a ∉ xs) (h' : a ∉ xs') :
    xs ++ a :: ys = xs' ++ a :: ys' ↔ xs = xs' ∧ ys = ys' := by
  refine ⟨fun heq => ?_, fun ⟨hxs, hys⟩ => by rw [hxs, hys]⟩
  -- one of the two texts before the bar is longer by some characters, or they are the same
  rcases List.append_eq_append_iff.mp heq with ⟨more, rfl, hmore⟩ | ⟨more, rfl, hmore⟩
  · cases more with
    | nil => simpa using hmore
    | cons b more =>
      injection hmore with hb
      exact absurd (List.mem_append_right xs (hb ▸ List.mem_cons_self)) h'
  · cases more with
    | nil => simpa using hmore.symm
    | cons b more =>
      injection hmore with hb
      exact absurd (List.mem_append_right xs' (hb ▸ List.mem_cons_self)) h

theorem append_cons_inj_of_last (h : a ∉ ys) (h' : a ∉ ys') :
    xs ++ a :: ys = xs' ++ a :: ys' ↔ xs = xs' ∧ ys = ys' := by
  rw [← List.reverse_inj]
  simp only [List.reverse_append, List.reverse_cons, List.append_assoc, List.singleton_append]
  rw [append_cons_inj_of_first (by simpa using h) (by simpa using h'), List.reverse_inj,
    List.reverse_inj, and_comm]

end

theorem bar_not_mem_toDigits (n : Nat) : '|' ∉ Nat.toDigits 10 n := fun h =>
  absurd (Nat.isDigit_of_mem_toDigits (by decide) (by decide) h) (by decide)

theorem toDigits_ten_inj {m n : Nat} : Nat.toDigits 10 m = Nat.toDigits 10 n ↔ m = n := by
  refine ⟨fun h => ?_, congrArg _⟩
  rw [← Nat.ofDigitChars_ten_toDigits (n := m), h, Nat.ofDigitChars_ten_toDigits]

theorem toList_identityText (container name : String) (arity : Nat) (path : String) :
    (identityText container name arity path).toList =
      container.toList ++ '|' :: (name.toList ++ '|' :: Nat.toDigits 10 arity ++ '|' :: path.toList) := by
  have harity : (arity : Int).repr.toList = Nat.toDigits 10 arity := Nat.toList_repr
  unfold identityText
  simp [String.toList_append, harity]

/-- The text that an identity hashes says what it was made of. -/
theorem identityText_inj {container container' name name' path path' : String} {arity arity' : Nat}
    (hcontainer : '|' ∉ container.toList) (hcontainer' : '|' ∉ container'.toList)
    (hpath : '|' ∉ path.toList) (hpath' : '|' ∉ path'.toList) :
    identityText container name arity path = identityText container' name' arity' path' ↔
      container = container' ∧ name = name' ∧ arity = arity' ∧ path = path' := by
  rw [← String.toList_inj, toList_identityText, toList_identityText,
    append_cons_inj_of_first hcontainer hcontainer', append_cons_inj_of_last hpath hpath',
    append_cons_inj_of_last (bar_not_mem_toDigits arity) (bar_not_mem_toDigits arity'),
    toDigits_ten_inj, String.toList_inj, String.toList_inj, String.toList_inj, and_assoc]

/-! ## Records that state no identity -/

/-- A record states no identity if it has no member for it, or an empty one. -/
def Value.Members.StatesNoId (m : Value.Members) : Prop :=
  m.get? "id" = none ∨ m.get? "id" = some (.text "")

/-- Two drafts describe the same definition. -/
structure Draft.SameDefinition (a b : Draft) : Prop where
  container : a.container = b.container
  name : a.name = b.name
  arity : a.arity = b.arity
  path : a.path = b.path

theorem Entity.describedBy_of_whole {d : Draft} {container name path : String}
    (hcontainer : d.container = .whole container) (hname : d.name = .whole name)
    (hpath : d.path = .whole path) :
    describedBy d = .whole (identityText container name d.arity path) := by
  unfold describedBy identityText
  rw [hcontainer, hname, hpath]
  simp only [Writing.append, String.append_assoc]
  rfl

theorem Entity.describedBy_eq_whole {d : Draft} {s : String} (h : describedBy d = .whole s) :
    ∃ container name path, d.container = .whole container ∧ d.name = .whole name ∧
      d.path = .whole path ∧ s = identityText container name d.arity path := by
  have hs := h
  unfold describedBy Writing.append at h
  cases hcontainer : d.container with
  | broken points => rw [hcontainer] at h; cases h
  | whole container =>
    cases hname : d.name with
    | broken points => rw [hcontainer, hname] at h; cases h
    | whole name =>
      cases hpath : d.path with
      | broken points => rw [hcontainer, hname, hpath] at h; cases h
      | whole path =>
        rw [describedBy_of_whole hcontainer hname hpath] at hs
        exact ⟨container, name, path, rfl, rfl, rfl, (Writing.whole.inj hs).symm⟩

theorem Draft.IsReadFrom.id_of_statesNoId {m : Value.Members} {d : Draft} (h : d.IsReadFrom m)
    (hid : m.StatesNoId) : ∃ s, Entity.describedBy d = .whole s ∧ d.id = .whole (Digest.sha256 s) := by
  obtain ⟨id, hmember, hstated⟩ := h.id
  have hempty : id = .whole "" := by
    rw [member_eq_ok_iff] at hmember
    rcases hid with hid | hid
    · rw [hid] at hmember
      exact hmember.symm
    · rw [hid] at hmember
      injection hmember with hmember
      exact hmember.symm
  exact (hstated.resolve_left fun h => h.1 hempty).2

/-- What a draft describes is told by the text that its identity hashes. -/
theorem Draft.sameDefinition_iff {a b : Draft} {s s' : String}
    (ha : Entity.describedBy a = .whole s) (hb : Entity.describedBy b = .whole s')
    (hbars : '|' ∉ a.container.legible.toList ∧ '|' ∉ a.path.legible.toList)
    (hbars' : '|' ∉ b.container.legible.toList ∧ '|' ∉ b.path.legible.toList) :
    s = s' ↔ a.SameDefinition b := by
  obtain ⟨container, name, path, hcontainer, hname, hpath, rfl⟩ := Entity.describedBy_eq_whole ha
  obtain ⟨container', name', path', hcontainer', hname', hpath', rfl⟩ :=
    Entity.describedBy_eq_whole hb
  rw [hcontainer, hpath, Writing.legible, Writing.legible] at hbars
  rw [hcontainer', hpath', Writing.legible, Writing.legible] at hbars'
  rw [identityText_inj hbars.1 hbars'.1 hbars.2 hbars'.2]
  constructor
  · rintro ⟨rfl, rfl, harity, rfl⟩
    exact ⟨hcontainer.trans hcontainer'.symm, hname.trans hname'.symm, harity, hpath.trans hpath'.symm⟩
  · rintro ⟨hc, hn, harity, hp⟩
    exact ⟨Writing.whole.inj (hcontainer.symm.trans (hc.trans hcontainer')),
      Writing.whole.inj (hname.symm.trans (hn.trans hname')), harity,
      Writing.whole.inj (hpath.symm.trans (hp.trans hpath'))⟩

/-- A record of a batch is a clause of one of the entities that are left of it. -/
theorem exists_unites_of_mem {drafts : List Draft} (h : ∀ d ∈ drafts, d.references.Nodup)
    {d : Draft} (hd : d ∈ drafts) :
    ∃ m ∈ mergeClauses drafts, m.id = d.id ∧ m.Unites (drafts.filter (·.id == d.id)) := by
  have hid : d.id ∈ (mergeClauses drafts).map Entity.id := by
    rw [map_id_mergeClauses, Text.mem_distinct]
    exact List.mem_map_of_mem hd
  obtain ⟨m, hm, hid⟩ := List.mem_map.mp hid
  exact ⟨m, hm, hid, hid ▸ unites_of_mem_mergeClauses h hm⟩

/-- The text that an identity hashes says what it was made of.  So of two records that state no identity,
whose texts the hash tells apart, the identities are the same, and the entities that a batch leaves of
them are one, exactly if they describe the same definition. -/
theorem identity_says_definition :
    (∀ (container name : String) (arity : Nat) (path : String)
      (container' name' : String) (arity' : Nat) (path' : String),
      '|' ∉ container.toList → '|' ∉ path.toList → '|' ∉ container'.toList → '|' ∉ path'.toList →
      identityText container name arity path = identityText container' name' arity' path' →
        container = container' ∧ name = name' ∧ arity = arity' ∧ path = path') ∧
    ∀ (record record' : Value.Members) (d d' : Draft),
      Draft.ofMembers record = .ok d → Draft.ofMembers record' = .ok d' →
      record.StatesNoId → record'.StatesNoId →
      '|' ∉ d.container.legible.toList ∧ '|' ∉ d.path.legible.toList →
      '|' ∉ d'.container.legible.toList ∧ '|' ∉ d'.path.legible.toList →
      (∀ s s', Entity.describedBy d = .whole s → Entity.describedBy d' = .whole s' →
        Digest.sha256 s = Digest.sha256 s' → s = s') →
      (d.id = d'.id ↔ d.SameDefinition d') ∧
      ∀ batch : List Draft, (∀ x ∈ batch, ∃ v, Draft.ofValue v = .ok x) → d ∈ batch → d' ∈ batch →
        ∃ m ∈ mergeClauses batch, ∃ m' ∈ mergeClauses batch,
          m.Unites (batch.filter (·.id == d.id)) ∧ m'.Unites (batch.filter (·.id == d'.id)) ∧
            (m = m' ↔ d.SameDefinition d') := by
  refine ⟨fun _ _ _ _ _ _ _ _ hc hp hc' hp' h => (identityText_inj hc hc' hp hp').mp h, ?_⟩
  intro record record' d d' hread hread' hnone hnone' hbars hbars' hhash
  obtain ⟨s, hs, hid⟩ := (Draft.isReadFrom_of_ofMembers hread).id_of_statesNoId hnone
  obtain ⟨s', hs', hid'⟩ := (Draft.isReadFrom_of_ofMembers hread').id_of_statesNoId hnone'
  have hsame : d.id = d'.id ↔ d.SameDefinition d' := by
    rw [hid, hid', Writing.whole.injEq, ← Draft.sameDefinition_iff hs hs' hbars hbars']
    exact ⟨hhash s s' hs hs', congrArg Digest.sha256⟩
  refine ⟨hsame, fun batch hchecked hd hd' => ?_⟩
  have hnodup : ∀ x ∈ batch, x.references.Nodup := fun x hx =>
    let ⟨_, hv⟩ := hchecked x hx
    (Draft.isNormal_of_ofValue hv).references
  obtain ⟨m, hm, hmid, hunites⟩ := exists_unites_of_mem hnodup hd
  obtain ⟨m', hm', hmid', hunites'⟩ := exists_unites_of_mem hnodup hd'
  refine ⟨m, hm, m', hm', hunites, hunites', ?_⟩
  rw [← hsame, ← hmid, ← hmid']
  exact ⟨congrArg Entity.id,
    fun h => List.inj_on_of_nodup_map (nodup_map_id_mergeClauses batch) hm hm' h⟩

/-- A record of a clause of an operator, and the draft that it is. -/
def operatorRecord (line : Nat) : Value.Members :=
  [("module", .text "Logic"), ("name", .text "||"), ("arity", .nat 2), ("path", .text "lib/logic.ex"),
   ("start_line", .nat line)]

def operatorClause (line : Nat) : Draft :=
  { id := identity "Logic" "||" 2 "lib/logic.ex", container := "Logic", name := "||", arity := 2,
    path := "lib/logic.ex", startLine := line, endLine := line, lexicalText := "" }

theorem identity_says_operator :
    (operatorClause 3).id = (operatorClause 8).id ∧
      ∃ m ∈ mergeClauses [operatorClause 3, operatorClause 8],
        m.Unites [operatorClause 3, operatorClause 8] := by
  have hread (line : Nat) : Draft.ofMembers (operatorRecord line) = .ok (operatorClause line) :=
    @Entity.identified_of_describedBy (.map (operatorRecord line)) _ _ rfl
      (Entity.describedBy_of_whole (d := { operatorClause line with id := "" }) rfl rfl rfl)
  obtain ⟨hsame, hmerged⟩ := identity_says_definition.2 _ _ _ _ (hread 3) (hread 8) (.inl rfl) (.inl rfl)
    (by decide) (by decide) (fun _ _ h h' _ => Writing.whole.inj (h.symm.trans h'))
  have hid := hsame.mpr ⟨rfl, rfl, rfl, rfl⟩
  refine ⟨hid, ?_⟩
  obtain ⟨m, hm, -, -, hunites, -⟩ := hmerged [operatorClause 3, operatorClause 8]
    (by
      intro x hx
      rcases List.mem_pair.mp hx with rfl | rfl
      · exact ⟨.map (operatorRecord 3), hread 3⟩
      · exact ⟨.map (operatorRecord 8), hread 8⟩)
    (by simp) (by simp)
  refine ⟨m, hm, ?_⟩
  rwa [List.filter_cons_of_pos (by simp), List.filter_cons_of_pos (by simp [hid]), List.filter_nil]
    at hunites

end CodeIndex
