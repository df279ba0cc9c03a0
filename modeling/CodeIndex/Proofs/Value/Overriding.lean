import CodeIndex.Proofs.Value.Merging

/-!
# One map over another, at any depth

Keys, one below the other, lead through maps to a value.  How far they lead in the upper of two maps
decides what they lead to in both together.  Where they lead to a value of the upper map, this value
counts, laid over what the lower map holds there; where the upper map has no such key, they lead to what
the lower map holds.  So a map that is laid over another once more changes nothing.
-/

namespace CodeIndex.Value

variable {v lower upper : Value} {base overlay members : Members} {key : String}
  {path place above : List String}

/-! ## What keys lead to -/

def isMap : Value → Bool
  | .map _ => true
  | _ => false

/-- The value that keys lead to, each of them a key of a map. -/
def at? (v : Value) : List String → Option Value
  | [] => some v
  | key :: rest => (v.get? key).bind fun w => w.at? rest

/-- Whether keys lead through maps only, what the last of them leads to left open. -/
def IsMapAbove (v : Value) (place : List String) : Prop :=
  ∀ above, above <+: place → above ≠ place → ∃ members, v.at? above = some (.map members)

theorem eq_map_or (v : Value) : (∃ members, v = .map members) ∨ v.isMap = false := by
  cases v with
  | map members => exact .inl ⟨members, rfl⟩
  | _ => exact .inr rfl

theorem get?_of_isMap_eq_false (h : v.isMap = false) (key : String) : v.get? key = none := by
  cases v with
  | map members => cases h
  | _ => rfl

theorem at?_singleton (v : Value) (key : String) : v.at? [key] = v.get? key :=
  Option.bind_fun_some _

theorem at?_append (path rest : List String) :
    v.at? (path ++ rest) = (v.at? path).bind (·.at? rest) := by
  induction path generalizing v with
  | nil => rfl
  | cons key more ih =>
    rw [List.cons_append, at?, at?, Option.bind_assoc]
    congr 1
    funext w
    exact ih

theorem exists_of_get? {w : Value} (h : v.get? key = some w) : ∃ members, v = .map members := by
  refine v.eq_map_or.resolve_right fun hv => ?_
  rw [get?_of_isMap_eq_false hv] at h
  cases h

/-- Nothing stands below a place at which there is no map. -/
theorem at?_below_eq_none (h : ∀ members, v.at? above ≠ some (.map members)) (key : String)
    (rest : List String) : v.at? (above ++ key :: rest) = none := by
  rw [at?_append]
  cases hv : v.at? above with
  | none => rfl
  | some w =>
    have hw : w.isMap = false := w.eq_map_or.resolve_left fun ⟨members, hmap⟩ => h members (hmap ▸ hv)
    rw [Option.bind_some, at?, get?_of_isMap_eq_false hw, Option.bind_none]

/-- Keys lead through maps only exactly if there is a map at the last place but one. -/
theorem isMapAbove_concat : v.IsMapAbove (above ++ [key]) ↔
    ∃ members, v.at? above = some (.map members) := by
  constructor
  · intro h
    exact h above (List.prefix_append _ _) (by simp)
  · rintro ⟨members, hmembers⟩ higher hprefix hne
    obtain ⟨below, rfl⟩ := (List.prefix_concat_iff.mp hprefix).resolve_left hne
    cases below with
    | nil => exact ⟨members, by rwa [List.append_nil] at hmembers⟩
    | cons next more =>
      by_contra hnone
      rw [at?_below_eq_none (not_exists.mp hnone)] at hmembers
      cases hmembers

/-! ## Different keys at any depth -/

/-- A value in which each map that keys lead to has different keys. -/
inductive IsKeyedThroughout : Value → Prop
  | leaf {v : Value} (h : v.isMap = false) : IsKeyedThroughout v
  | map {members : Members} (differ : members.keys.Nodup)
      (below : ∀ member ∈ members, IsKeyedThroughout member.2) : IsKeyedThroughout (.map members)

theorem IsKeyedThroughout.differ (h : IsKeyedThroughout (.map members)) : members.keys.Nodup := by
  cases h with
  | leaf h => cases h
  | map differ below => exact differ

theorem IsKeyedThroughout.get? {w : Value} (h : v.IsKeyedThroughout) (hw : v.get? key = some w) :
    w.IsKeyedThroughout := by
  cases h with
  | leaf h =>
    rw [get?_of_isMap_eq_false h] at hw
    cases hw
  | map differ below => exact below _ (Members.mem_of_get? hw)

theorem IsKeyedThroughout.at? {w : Value} (h : v.IsKeyedThroughout) (hw : v.at? path = some w) :
    w.IsKeyedThroughout := by
  induction path generalizing v with
  | nil => exact Option.some.inj hw ▸ h
  | cons key rest ih =>
    obtain ⟨u, hu, hat⟩ := Option.bind_eq_some_iff.mp hw
    exact ih (h.get? hu) hat

/-! ## A value over another -/

theorem mergedValue_map (base overlay : Members) :
    mergedValue (.map base) (.map overlay) = .map (merged base overlay) := by
  rw [mergedValue]

/-- What is no map gives way to any value. -/
theorem mergedValue_of_lower (h : lower.isMap = false) : mergedValue lower upper = upper := by
  cases upper with
  | map overlay =>
    cases lower with
    | map base => cases h
    | _ => simp [mergedValue]
  | _ => simp [mergedValue]

/-- Anything gives way to what is no map. -/
theorem mergedValue_of_upper (h : upper.isMap = false) : mergedValue lower upper = upper := by
  cases upper with
  | map overlay => cases h
  | _ => simp [mergedValue]

theorem exists_mergedValue_map (lower : Value) (overlay : Members) :
    ∃ members, mergedValue lower (.map overlay) = .map members := by
  rcases lower.eq_map_or with ⟨base, rfl⟩ | hlower
  · exact ⟨_, mergedValue_map base overlay⟩
  · exact ⟨overlay, mergedValue_of_lower hlower⟩

theorem overlaid_none (lower : Option Value) : overlaid lower none = lower := by
  cases lower <;> rfl

/-- A key of a map that lies over a value. -/
theorem get?_mergedValue (h : IsKeyedThroughout (.map overlay)) (lower : Value) (key : String) :
    (mergedValue lower (.map overlay)).get? key = overlaid (lower.get? key) (overlay.get? key) := by
  rcases lower.eq_map_or with ⟨base, rfl⟩ | hlower
  · rw [mergedValue_map]
    exact get?_merged h.differ
  · rw [mergedValue_of_lower hlower, get?_of_isMap_eq_false hlower]
    change overlay.get? key = _
    cases overlay.get? key <;> rfl

/-- What keys lead to in the upper value counts, laid over what they lead to in the lower one. -/
theorem at?_mergedValue_of_some (hupper : upper.IsKeyedThroughout) (h : upper.at? path = some v) :
    (mergedValue lower upper).at? path = overlaid (lower.at? path) (some v) := by
  induction path generalizing lower upper with
  | nil =>
    obtain rfl := Option.some.inj h
    rfl
  | cons key rest ih =>
    obtain ⟨u, hu, hv⟩ := Option.bind_eq_some_iff.mp h
    obtain ⟨overlay, rfl⟩ := exists_of_get? hu
    rw [at?, at?, get?_mergedValue hupper, show Members.get? overlay key = some u from hu]
    -- What the lower value holds at the first key is what the other keys start from.
    cases lower.get? key with
    | none => exact hv
    | some l => exact ih (hupper.get? hu) hv

/-- Where the upper value has no such key, keys lead to what they lead to in the lower one. -/
theorem at?_mergedValue_of_none (hupper : upper.IsKeyedThroughout)
    (habove : upper.at? above = some (.map overlay)) (hkey : overlay.get? key = none)
    (rest : List String) :
    (mergedValue lower upper).at? (above ++ key :: rest) = lower.at? (above ++ key :: rest) := by
  induction above generalizing lower upper with
  | nil =>
    obtain rfl := Option.some.inj habove
    rw [List.nil_append, at?, at?, get?_mergedValue hupper, hkey, overlaid_none]
  | cons first more ih =>
    obtain ⟨u, hu, hmore⟩ := Option.bind_eq_some_iff.mp habove
    obtain ⟨outer, rfl⟩ := exists_of_get? hu
    rw [List.cons_append, at?, at?, get?_mergedValue hupper, show Members.get? outer first = some u from hu]
    cases lower.get? first with
    | none =>
      -- The lower value leads nowhere here, and the upper one stands alone without the key.
      change u.at? (more ++ key :: rest) = none
      rw [at?_append, hmore, Option.bind_some, at?, show (Value.map overlay).get? key = none from hkey,
        Option.bind_none]
    | some l => exact ih (hupper.get? hu) hmore

/-! ## Twice over -/

theorem Members.set_of_get? {m : Members} (h : m.get? key = some v) : m.set key v = m := by
  induction m with
  | nil => cases h
  | cons member rest ih =>
    obtain ⟨first, w⟩ := member
    rw [get?_cons] at h
    rw [set]
    by_cases hfirst : key = first
    · rw [if_pos hfirst] at h
      rw [if_pos (beq_iff_eq.mpr hfirst.symm), Option.some.inj h]
    · rw [if_neg hfirst] at h
      rw [if_neg (by simpa using Ne.symm hfirst), ih h]

theorem Members.get?_of_mem {m : Members} (h : m.keys.Nodup) {member : String × Value}
    (hmember : member ∈ m) : m.get? member.1 = some member.2 := by
  induction m with
  | nil => cases hmember
  | cons first rest ih =>
    obtain ⟨hfirst, hrest⟩ := List.nodup_cons.mp h
    rw [get?_cons]
    rcases List.mem_cons.mp hmember with rfl | hmember
    · rw [if_pos rfl]
    · have hne : member.1 ≠ first.1 := fun he => hfirst (List.mem_map.mpr ⟨member, hmember, he⟩)
      rw [if_neg hne, ih hrest hmember]

/-- A map changes nothing where each of its members, laid over what is there, changes nothing. -/
theorem merged_eq_self
    (h : ∀ member ∈ overlay, ∃ l, base.get? member.1 = some l ∧ mergedValue l member.2 = l) :
    merged base overlay = base := by
  induction overlay with
  | nil => rw [merged]
  | cons member rest ih =>
    obtain ⟨key, v⟩ := member
    obtain ⟨⟨l, hl, hsame⟩, hrest⟩ := List.forall_mem_cons.mp h
    calc merged base ((key, v) :: rest)
        = merged (base.set key (mergedValue l v)) rest := by rw [merged_cons, hl]; rfl
      _ = merged base rest := by rw [hsame, Members.set_of_get? hl]
      _ = base := ih hrest

/-- A value that is laid over another once more changes nothing. -/
theorem mergedValue_mergedValue (h : upper.IsKeyedThroughout) (lower : Value) :
    mergedValue (mergedValue lower upper) upper = mergedValue lower upper := by
  -- Each member of the upper map is there already, laid over what was there; the induction is on it.
  induction h generalizing lower with
  | leaf h => rw [mergedValue_of_upper h, mergedValue_of_upper h]
  | @map overlay differ below ih =>
    obtain ⟨members, hmembers⟩ := exists_mergedValue_map lower overlay
    rw [hmembers, mergedValue_map]
    refine congrArg map (merged_eq_self fun member hmember => ?_)
    have hget : Members.get? members member.1 = overlaid (lower.get? member.1) (some member.2) := by
      rw [← Members.get?_of_mem differ hmember, ← get?_mergedValue (.map differ below), hmembers]
      rfl
    cases hl : lower.get? member.1 with
    | none =>
      -- A value laid over itself has been laid over nothing before.
      have hnull : mergedValue .null member.2 = member.2 := mergedValue_of_lower rfl
      refine ⟨member.2, by rw [hget, hl]; rfl, ?_⟩
      have htwice := ih member hmember .null
      rwa [hnull] at htwice
    | some l => exact ⟨mergedValue l member.2, by rw [hget, hl]; rfl, ih member hmember l⟩

/-! ## Keys in order -/

/-- The keys of the lower map come first, as they were, and then those that the upper map alone has. -/
theorem keys_merged (h : overlay.keys.Nodup) :
    (merged base overlay).keys = base.keys ++ overlay.keys.filter (· ∉ base.keys) := by
  induction overlay generalizing base with
  | nil => simp [merged, Members.keys]
  | cons member rest ih =>
    obtain ⟨key, v⟩ := member
    obtain ⟨hkey, hrest⟩ := List.nodup_cons.mp h
    rw [merged_cons, ih hrest, Members.keys_set,
      show Members.keys ((key, v) :: rest) = key :: Members.keys rest from rfl]
    by_cases hbase : key ∈ base.keys
    · rw [if_pos hbase, List.filter_cons_of_neg (by simpa using hbase)]
    · have hsame : (Members.keys rest).filter (· ∉ base.keys ++ [key]) =
          (Members.keys rest).filter (· ∉ base.keys) :=
        List.filter_congr fun k hk => by
          have hne : k ≠ key := fun he => hkey (he ▸ hk)
          simp [hne]
      rw [if_neg hbase, List.filter_cons_of_pos (by simpa using hbase), hsame, List.append_assoc]
      rfl

/-! ## The map as a whole -/

/-- What keys lead to in a map that is laid over another.  Where they lead in the upper map to a value
that is no map, it is there, and nothing is below it; where the upper map has no such key, there is what
the lower map holds, if keys lead through maps there too, and nothing otherwise; where the upper map holds
a map, there is a map, with the keys of the lower map first, if there is one.  Laying the upper map over
once more changes nothing. -/
theorem merged_overrides (h : IsKeyedThroughout (.map overlay)) (base : Members) :
    (∀ path above v, above <+: path → at? (.map overlay) above = some v → v.isMap = false →
      at? (.map (merged base overlay)) above = some v ∧
        at? (.map (merged base overlay)) path = at? (.map overlay) path) ∧
    (∀ path place, place <+: path → IsMapAbove (.map overlay) place →
      at? (.map overlay) place = none →
        (IsMapAbove (.map base) place →
          at? (.map (merged base overlay)) path = at? (.map base) path) ∧
        (¬ IsMapAbove (.map base) place → at? (.map (merged base overlay)) path = none)) ∧
    (∀ path (held : Members), at? (.map overlay) path = some (.map held) →
      ∃ members : Members, at? (.map (merged base overlay)) path = some (.map members) ∧
        ∀ covered : Members, at? (.map base) path = some (.map covered) →
          members.keys = covered.keys ++ held.keys.filter (· ∉ covered.keys)) ∧
    merged (merged base overlay) overlay = merged base overlay ∧
    (merged base overlay).keys = base.keys ++ overlay.keys.filter (· ∉ base.keys) := by
  rw [← mergedValue_map]
  refine ⟨?_, ?_, ?_, ?_, keys_merged h.differ⟩
  · rintro path above v ⟨rest, rfl⟩ hv hleaf
    have hthere : at? (mergedValue (.map base) (.map overlay)) above = some v := by
      rw [at?_mergedValue_of_some h hv]
      cases at? (.map base) above with
      | none => rfl
      | some l => exact congrArg some (mergedValue_of_upper hleaf)
    exact ⟨hthere, by rw [at?_append, at?_append, hthere, hv]⟩
  · rintro path place ⟨rest, rfl⟩ habove hnone
    obtain rfl | ⟨above, key, rfl⟩ := List.eq_nil_or_concat' place
    · cases hnone
    obtain ⟨held, hheld⟩ := isMapAbove_concat.mp habove
    have hkey : Members.get? held key = none := by
      rwa [at?_append, hheld, Option.bind_some, at?_singleton] at hnone
    rw [List.append_assoc, List.singleton_append, at?_mergedValue_of_none h hheld hkey,
      isMapAbove_concat]
    exact ⟨fun _ => rfl, fun hbase => at?_below_eq_none (not_exists.mp hbase) key rest⟩
  · intro path held hheld
    rw [at?_mergedValue_of_some h hheld]
    cases hcovered : at? (.map base) path with
    | none => exact ⟨held, rfl, nofun⟩
    | some l =>
      rcases l.eq_map_or with ⟨covered, rfl⟩ | hl
      · refine ⟨merged covered held, congrArg some (mergedValue_map covered held), fun _ hsame => ?_⟩
        cases hsame
        exact keys_merged (h.at? hheld).differ
      · refine ⟨held, congrArg some (mergedValue_of_lower hl), fun _ hsame => ?_⟩
        cases hsame
        cases hl
  · have htwice := mergedValue_mergedValue h (.map base)
    rw [mergedValue_map, mergedValue_map] at htwice
    exact map.inj htwice

/-- A map with a map in it, and one without. -/
def plainMembers : Members :=
  [("index", .map [("path", .text "a"), ("limit", .int 1)]), ("server", .int 3)]

/-- Maps at a map, at a number and at nothing. -/
def overlaidMembers : Members :=
  [("server", .map [("port", .int 80)]), ("log", .map [("level", .text "INFO")]),
    ("index", .map [("path", .text "b")])]

theorem merged_overlaidMembers :
    IsKeyedThroughout (.map overlaidMembers) ∧
    at? (.map (merged plainMembers overlaidMembers)) ["index", "path"] = some (.text "b") ∧
    at? (.map (merged plainMembers overlaidMembers)) ["index", "limit"] = some (.int 1) ∧
    at? (.map (merged plainMembers overlaidMembers)) ["server", "host"] = none ∧
    (∃ members, at? (.map (merged plainMembers overlaidMembers)) ["log"] = some (.map members)) ∧
    merged (merged plainMembers overlaidMembers) overlaidMembers = merged plainMembers overlaidMembers ∧
    (merged plainMembers overlaidMembers).keys = ["index", "server", "log"] := by
  have hkeyed : IsKeyedThroughout (.map overlaidMembers) := by
    refine .map (by decide) ?_
    simp only [overlaidMembers, List.forall_mem_cons]
    refine ⟨.map (by decide) ?_, .map (by decide) ?_, .map (by decide) ?_, nofun⟩ <;>
      exact List.forall_mem_singleton.mpr (.leaf rfl)
  obtain ⟨hleaf, hmissing, hmap, htwice, hkeys⟩ := merged_overrides hkeyed plainMembers
  refine ⟨hkeyed, ?_, ?_, ?_, ?_, htwice, hkeys.trans (by decide)⟩
  · exact (hleaf ["index", "path"] _ _ List.prefix_rfl rfl rfl).1
  · exact (hmissing ["index", "limit"] (["index"] ++ ["limit"]) List.prefix_rfl
      (isMapAbove_concat.mpr ⟨_, rfl⟩) rfl).1 (isMapAbove_concat.mpr ⟨_, rfl⟩)
  · refine (hmissing ["server", "host"] (["server"] ++ ["host"]) List.prefix_rfl
      (isMapAbove_concat.mpr ⟨_, rfl⟩) rfl).2 fun hbase => ?_
    obtain ⟨members, hmembers⟩ := isMapAbove_concat.mp hbase
    cases hmembers
  · obtain ⟨members, hmembers, -⟩ := hmap ["log"] _ rfl
    exact ⟨members, hmembers⟩

end CodeIndex.Value
