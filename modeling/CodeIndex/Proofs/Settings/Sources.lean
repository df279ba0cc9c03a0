import CodeIndex.Proofs.Settings.Sound
import CodeIndex.Yaml.Reader
import CodeIndex.Settings.Load

/-!
# Where settings come from

What each of the sources says, and what they say together once they are merged.  At the key of a setting
the merged map holds what the strongest source with a value for it holds, whatever weaker ones say; only
where that value is a map, and so not one of any setting, do they show through.
-/

namespace CodeIndex.Settings

open Validation Checked

/-! ## What a source says -/

/-- What a configuration file says; nothing if it is not readable. -/
def ConfigFile.members (yaml : Yaml.Reader) (file : ConfigFile) : Value.Members :=
  match file.read yaml with
  | .ok (m, _) => m
  | .error _ => []

/-- What the environment says; nothing if it is not readable. -/
def Sources.named (sources : Sources) : Value.Members :=
  match ofEnvironment sources.environment sources.depth with
  | .ok m => m
  | .error _ => []

/-- What the sources say, the strongest first. -/
def Sources.layers (sources : Sources) : List Value.Members :=
  [sources.direct, sources.named, sources.project.members sources.yaml,
    sources.everywhere.members sources.yaml]

/-- What the strongest source with a value for a setting says about it. -/
def Sources.given? {α : Type} (sources : Sources) (f : Setting α) : Option Value :=
  sources.layers.findSome? fun m => (m.part f.part).get? f.key

def Sources.all (sources : Sources) : Value.Members :=
  Value.merged
    (Value.merged (sources.everywhere.members sources.yaml) (sources.project.members sources.yaml))
    (Value.merged sources.named sources.direct)

/-- Sources that can be read, down to the texts of the variables. -/
structure Sources.IsReadable (sources : Sources) : Prop where
  everywhere : ∃ m, sources.everywhere.read sources.yaml = .ok (m, true)
  project : ∃ m, sources.project.read sources.yaml = .ok (m, true)
  environment : ∃ m, ofEnvironment sources.environment sources.depth = .ok m

/-! ## Different keys -/

theorem isKeyed_nil : Value.Members.IsKeyed [] :=
  ⟨List.nodup_nil, fun _ => List.nodup_nil⟩

theorem ConfigFile.isKeyed_members (yaml : Yaml.Reader) (file : ConfigFile) :
    (file.members yaml).IsKeyed := by
  unfold members
  split
  · rename_i m textKeys hread
    unfold read at hread
    split at hread
    · cases hread
    · cases hread
      exact isKeyed_nil
    · split at hread
      · cases hread
      · cases hread
      · rename_i document hdocument
        split at hread
        · cases hread
          exact isKeyed_nil
        · split at hread
          · rename_i members hvalue
            cases hread
            exact yaml.isKeyed hdocument hvalue
          · cases hread
  · exact isKeyed_nil

/-- A section of the environment has each of its keys once. -/
theorem nodup_keys_of_sectionOf {depth : Nat} {entries : List (String × String)} {name : String}
    {fields : List (String × Bool)} {m : Value.Members}
    (h : sectionOf depth entries name fields = .ok (some (.map m))) : m.keys.Nodup := by
  unfold sectionOf at h
  split at h
  · cases hsingle : singleSettings depth name fields entries [] with
    | error e => rw [hsingle] at h; cases h
    | ok members =>
      rw [hsingle] at h
      change Except.ok _ = _ at h
      split at h
      · cases h
      · cases h
        exact Value.Members.nodup_keys_ofPairs _
  · rename_i text _
    cases hjson : jsonOf depth name text with
    | error e => rw [hjson] at h; cases h
    | ok v =>
      rw [hjson] at h
      cases v with
      | map base =>
        cases hsingle : singleSettings depth name fields entries [] with
        | error e =>
          simp only [bind, Except.bind, hsingle] at h
          cases h
        | ok members =>
          simp only [bind, Except.bind, hsingle] at h
          cases h
          exact Value.Members.nodup_keys_ofPairs _
      | _ => cases h

/-- The environment gives each section once, and each setting of a section once. -/
theorem mem_of_ofEnvironment {depth : Nat} {entries : List (String × String)}
    {names : List (String × List (String × Bool))} {m : Value.Members}
    (h : ofEnvironment.go depth entries names = .ok m) :
    m.keys.Sublist (names.map Prod.fst) ∧
      ∀ name inner, (name, .map inner) ∈ m → (Value.Members.keys inner).Nodup := by
  induction names generalizing m with
  | nil =>
    cases h
    exact ⟨List.Sublist.slnil, nofun⟩
  | cons entry rest ih =>
    obtain ⟨name, fields⟩ := entry
    rw [ofEnvironment.go] at h
    cases hsection : sectionOf depth entries name fields with
    | error e => rw [hsection] at h; cases h
    | ok said =>
      rw [hsection] at h
      cases said with
      | none =>
        obtain ⟨hkeys, hparts⟩ := ih h
        exact ⟨hkeys.cons _, hparts⟩
      | some v =>
        cases hrest : ofEnvironment.go depth entries rest with
        | error e => rw [hrest] at h; cases h
        | ok members =>
          rw [hrest] at h
          cases h
          obtain ⟨hkeys, hparts⟩ := ih hrest
          refine ⟨hkeys.cons_cons name, fun k inner hmem => ?_⟩
          rcases List.mem_cons.mp hmem with heq | hmem
          · cases heq
            exact nodup_keys_of_sectionOf hsection
          · exact hparts k inner hmem

theorem Sources.isKeyed_named (sources : Sources) : sources.named.IsKeyed := by
  unfold named
  split
  · rename_i m h
    obtain ⟨hkeys, hparts⟩ := mem_of_ofEnvironment h
    refine ⟨hkeys.nodup (by decide), fun name => ?_⟩
    unfold Value.Members.part
    split
    · rename_i inner hget
      exact hparts name inner (Value.Members.mem_of_get? hget)
    · exact List.nodup_nil
  · exact isKeyed_nil

/-! ## What counts of a value -/

/-- A value unless it is a map. -/
def leaf : Value → Option Value
  | .map _ => none
  | v => some v

/-- Of a value that lies over another, the upper one counts. -/
theorem leaf_overlaid (lower upper : Option Value) :
    (Value.overlaid lower upper).map leaf = (upper.or lower).map leaf := by
  cases upper with
  | none => rfl
  | some u =>
    cases lower with
    | none => rfl
    | some l => cases u <;> cases l <;> simp [Value.overlaid, Value.mergedValue, leaf]

/-- A setting takes no more of what is given for it than what is not a map. -/
theorem IsSetting.takes_congr {homes : Homes} {α : Type} {f : Setting α} (hf : IsSetting homes f)
    {given given' : Option Value} (h : given.map leaf = given'.map leaf) (a : α) :
    f.Takes given a ↔ f.Takes given' a := by
  cases given with
  | none =>
    cases given' with
    | none => rfl
    | some v => cases h
  | some v =>
    cases given' with
    | none => cases h
    | some v' =>
      have hleaf : leaf v = leaf v' := Option.some.inj h
      by_cases hv : leaf v = none
      · obtain ⟨m, rfl⟩ : ∃ m, v = .map m := by cases v <;> first | exact ⟨_, rfl⟩ | cases hv
        obtain ⟨m', rfl⟩ : ∃ m', v' = .map m' := by
          rw [hleaf] at hv
          cases v' <;> first | exact ⟨_, rfl⟩ | cases hv
        exact iff_of_false (hf.check_map_ne m a) (hf.check_map_ne m' a)
      · have hsame : v = v' := by
          cases v <;> cases v' <;> simp [leaf] at hleaf hv ⊢ <;> exact hleaf
        rw [hsame]

/-! ## What all sources say -/

section All

variable {sources : Sources}

theorem findSome?_cons_eq_or {α β : Type} (f : α → Option β) (a : α) (rest : List α) :
    (a :: rest).findSome? f = (f a).or (rest.findSome? f) := by
  rw [List.findSome?_cons]
  cases f a <;> rfl

theorem given?_eq {α : Type} (sources : Sources) (f : Setting α) : sources.given? f =
    ((sources.direct.part f.part).get? f.key).or (((sources.named.part f.part).get? f.key).or
      ((((sources.project.members sources.yaml).part f.part).get? f.key).or
        (((sources.everywhere.members sources.yaml).part f.part).get? f.key))) := by
  rw [Sources.given?, Sources.layers, findSome?_cons_eq_or, findSome?_cons_eq_or,
    findSome?_cons_eq_or, findSome?_cons_eq_or, List.findSome?_nil, Option.or_none]

theorem mem_keys_all {key : String} :
    key ∈ sources.all.keys ↔ ∃ m ∈ sources.layers, key ∈ m.keys := by
  simp only [Sources.all, Sources.layers, Value.mem_keys_merged, List.exists_mem_cons_iff,
    List.not_mem_nil, false_and, exists_false, or_false]
  tauto

variable (hdirect : sources.direct.IsKeyed)
  (hmaps : ∀ m ∈ sources.layers, ∀ name ∈ sectionNames, m.IsMapAt name)

include hdirect hmaps

theorem isMapAt_all {name : String} (hname : name ∈ sectionNames) : sources.all.IsMapAt name := by
  simp only [Sources.layers, List.forall_mem_cons] at hmaps
  obtain ⟨hd, hn, hp, he, -⟩ := hmaps
  exact Value.isMapAt_merged
    (Value.isMapAt_merged (he name hname) (hp name hname) (sources.project.isKeyed_members _))
    (Value.isMapAt_merged (hn name hname) (hd name hname) hdirect)
    (sources.isKeyed_named.merged hdirect)

/-- What stands at the key of a setting in all that the sources say is what the strongest of them says
there, up to what is in maps. -/
theorem leaf_all {α : Type} {f : Setting α} (hf : f.part ∈ sectionNames) :
    ((sources.all.part f.part).get? f.key).map leaf = (sources.given? f).map leaf := by
  have hleaf : ∀ x y : Option Value, (x.or y).map leaf = (x.map leaf).or (y.map leaf) :=
    fun x y => by cases x <;> rfl
  simp only [Sources.layers, List.forall_mem_cons] at hmaps
  obtain ⟨hd, hn, hp, he, -⟩ := hmaps
  have hfiles := Value.isMapAt_merged (he _ hf) (hp _ hf) (sources.project.isKeyed_members _)
  have hothers := Value.isMapAt_merged (hn _ hf) (hd _ hf) hdirect
  rw [Sources.all, Value.get?_part_merged hfiles hothers (sources.isKeyed_named.merged hdirect),
    Value.get?_part_merged (he _ hf) (hp _ hf) (sources.project.isKeyed_members _),
    Value.get?_part_merged (hn _ hf) (hd _ hf) hdirect, leaf_overlaid, hleaf, leaf_overlaid,
    leaf_overlaid, given?_eq, ← hleaf, Option.or_assoc]

/-- All that the sources say gives a setting what the strongest of them says about it. -/
theorem from_all_eq_ok_iff {homes : Homes} {α : Type} {f : Setting α} (hf : IsSetting homes f) (a : α) :
    f.from (sources.all.part f.part) = .ok a ↔ f.Takes (sources.given? f) a := by
  rw [from_eq_ok_iff]
  exact hf.takes_congr (leaf_all hdirect hmaps hf.part_mem) a

end All

end CodeIndex.Settings
