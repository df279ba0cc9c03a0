import CodeIndex.Proofs.Settings.Sources

/-!
# Which source counts

Settings that load are settled one by one: each is the value that the strongest source has for it, checked,
or its default if no source has one.  So a value that a stronger source overrides has no part in the result,
and a setting of one source hides no other of the same section.
-/

namespace CodeIndex.Settings

open Validation Checked

variable {sources : Sources}

/-! ## Reading the sources -/

/-- Why sources cannot be read. -/
inductive Sources.Obstructs (sources : Sources) : Trouble → Prop
  | everywhere {t : Trouble} (h : sources.everywhere.read sources.yaml = .error t) : Obstructs sources t
  | project {t : Trouble} (h : sources.project.read sources.yaml = .error t) : Obstructs sources t
  | environment {m : Mishap} (h : ofEnvironment sources.environment sources.depth = .error m) :
    Obstructs sources (.mishap m)
  | keys {file : ConfigFile} {m : Value.Members} (hfile : file ∈ [sources.everywhere, sources.project])
      (h : file.read sources.yaml = .ok (m, false)) :
    Obstructs sources (.mishap (.wrongType "keywords must be strings"))

/-- What is loaded from sources that can be read. -/
theorem load_of_isReadable (h : sources.IsReadable) : load sources =
    if (destinations sources.all).any fun s => (Path.ofString s).isHomeless sources.home then
      .error (.mishap (.other unknownHome))
    else
      match ofSections sources.home sources.all with
      | .ok s => recheck sources.home s
      | .faults [] => .error (.failure (.internal "no fault" []))
      | .faults (fault :: _) => .error (troubleOf sources.depth fault) := by
  obtain ⟨⟨everywhere, he⟩, ⟨project, hp⟩, environment, hn⟩ := h
  have hall : sources.all = Value.merged (Value.merged everywhere project)
      (Value.merged environment sources.direct) := by
    unfold Sources.all ConfigFile.members Sources.named
    rw [he, hp, hn]
  unfold load
  rw [he, hp, hn, hall]
  rfl

/-- Sources can be read, or loading ends with what stands in the way. -/
theorem isReadable_or_obstructs (sources : Sources) :
    sources.IsReadable ∨ ∃ t, load sources = .error t ∧ sources.Obstructs t := by
  cases he : sources.everywhere.read sources.yaml with
  | error t => exact .inr ⟨t, by unfold load; rw [he]; rfl, .everywhere he⟩
  | ok everywhere =>
    obtain ⟨everywhere, textKeys⟩ := everywhere
    cases hp : sources.project.read sources.yaml with
    | error t => exact .inr ⟨t, by unfold load; rw [he, hp]; rfl, .project hp⟩
    | ok project =>
      obtain ⟨project, textKeys'⟩ := project
      cases hn : ofEnvironment sources.environment sources.depth with
      | error m => exact .inr ⟨.mishap m, by unfold load; rw [he, hp, hn]; rfl, .environment hn⟩
      | ok environment =>
        have hkeys : textKeys = false ∨ textKeys' = false →
            load sources = .error (.mishap (.wrongType "keywords must be strings")) := by
          intro h
          have hboth : (textKeys && textKeys') = false := Bool.and_eq_false_iff.mpr h
          unfold load
          rw [he, hp, hn]
          change (if (!(textKeys && textKeys')) = true then _ else _) = _
          rw [hboth]
          rfl
        cases textKeys with
        | false => exact .inr ⟨_, hkeys (.inl rfl), .keys (by simp) he⟩
        | true =>
          cases textKeys' with
          | false => exact .inr ⟨_, hkeys (.inr rfl), .keys (by simp) hp⟩
          | true => exact .inl ⟨⟨_, he⟩, ⟨_, hp⟩, _, hn⟩

theorem isReadable_of_load {s : Settings} (h : load sources = .ok s) : sources.IsReadable := by
  rcases isReadable_or_obstructs sources with hread | ⟨t, ht, -⟩
  · exact hread
  · rw [h] at ht
    cases ht

/-! ## Checking all that they say -/

theorem strangers_eq_ok_iff {m : Value.Members} :
    strangers m = .ok () ↔ ∀ key ∈ m.keys, key ∈ sectionNames := by
  have hnone : (m.filter fun e => !sectionNames.contains e.1) = [] ↔
      ∀ key ∈ m.keys, key ∈ sectionNames := by
    simp only [List.filter_eq_nil_iff, Value.Members.keys, List.forall_mem_map, Bool.not_eq_true',
      Bool.not_eq_false, List.contains_iff_mem]
  unfold strangers
  generalize hunknown : List.filter _ m = unknown
  cases unknown with
  | nil => exact iff_of_true rfl (hnone.mp hunknown)
  | cons e rest =>
    refine iff_of_false (fun h => ?_) fun h => ?_
    · cases h
    · rw [hnone.mpr h] at hunknown
      cases hunknown

theorem ofSections_eq_ok_iff {homes : Homes} {m : Value.Members} {s : Settings} :
    ofSections homes m = .ok s ↔
      ofMembers homes m = .ok s ∧ ∀ key ∈ m.keys, key ∈ sectionNames := by
  constructor
  · intro h
    obtain ⟨g, hg, u, hu, rfl⟩ := seq_eq_ok_iff.mp h
    obtain ⟨s, hs, rfl⟩ := map_eq_ok_iff.mp hg
    exact ⟨hs, strangers_eq_ok_iff.mp hu⟩
  · rintro ⟨hs, hkeys⟩
    exact seq_eq_ok_iff.mpr
      ⟨_, map_eq_ok_iff.mpr ⟨s, hs, rfl⟩, (), strangers_eq_ok_iff.mpr hkeys, rfl⟩

/-- The home in which a destination of a log output that passes may lie is known. -/
theorem isHomeless_of_destination {homes : Homes} {v : Value} {s d : String}
    (hv : legibleText v = .ok s) (h : destination homes v = .ok d) :
    (Path.ofString s).isHomeless homes = false := by
  obtain ⟨t, ht, hd⟩ := andThen_eq_ok_iff.mp h
  obtain rfl := Checked.ok.inj (hv.symm.trans ht)
  split at hd
  · rename_i hstream
    rw [Bool.or_eq_true, beq_iff_eq, beq_iff_eq] at hstream
    rcases hstream with rfl | rfl <;> rfl
  · unfold Path.isHomeless
    split at hd
    · rename_i path hpath
      rw [hpath]
    · cases hd
    · cases hd

/-- Outputs that were checked name no home that is unknown. -/
theorem isHomeless_of_outputs {homes : Homes} {m : Value.Members} {outputs : List LogOutput}
    (h : m.IsMapAt "logging")
    (houtputs : member (m.part "logging") "outputs" (list (logOutput homes)) [{}] = .ok outputs) :
    ∀ s ∈ destinations m, (Path.ofString s).isHomeless homes = false := by
  have hlook : (m.get? "logging").bind (·.get? "outputs") = (m.part "logging").get? "outputs" := by
    rcases h.cases with ⟨hnone, hpart⟩ | hsome
    · rw [hnone, hpart]
      rfl
    · rw [hsome]
      rfl
  intro s hs
  unfold destinations at hs
  rw [hlook] at hs
  rw [member_eq_ok_iff] at houtputs
  split at hs
  · rename_i items hitems
    rw [hitems] at houtputs
    obtain ⟨v, hv, hs⟩ := List.mem_filterMap.mp hs
    obtain ⟨o, -, ho⟩ := exists_of_mem_all houtputs hv
    cases v with
    | map output =>
      have hget : (Value.map output).get? "destination" = Value.Members.get? output "destination" := rfl
      rw [hget] at hs
      split at hs
      · rename_i t ht
        cases hs
        obtain ⟨w, hw, htext⟩ := Option.map_eq_some_iff.mp ht
        have hdestination := member_eq_ok_iff.mp (logOutput_eq_ok_iff.mp ho).2.1
        rw [hw] at hdestination
        exact isHomeless_of_destination htext hdestination
      · cases hs
    | _ => cases ho
  · cases hs

/-! ## Checking settings again -/

section Again

variable {homes : Homes} {m : Value.Members} {s : Settings}

theorem isMapAt_of_member {α : Type} {name type : String} {check : Value.Members → Checked α}
    {default a : α} (h : member m name (checkedSection type check) default = .ok a) :
    m.IsMapAt name := by
  intro v hv
  rw [member_eq_ok_iff, hv] at h
  cases v with
  | map members => exact ⟨members, rfl⟩
  | _ => cases h

theorem isMapAt_of_ofMembers (h : ofMembers homes m = .ok s) : ∀ name ∈ sectionNames, m.IsMapAt name := by
  obtain ⟨hl, hs, hi, he, hw, hq, hf, hd⟩ := ofMembers_eq_ok_iff.mp h
  simp only [sectionNames, List.forall_mem_cons]
  exact ⟨isMapAt_of_member hl, isMapAt_of_member hs, isMapAt_of_member hi, isMapAt_of_member he,
    isMapAt_of_member hw, isMapAt_of_member hq, isMapAt_of_member hf, isMapAt_of_member hd,
    fun _ hname => absurd hname List.not_mem_nil⟩

theorem isSound_of_ofMembers (hhome : homes.own.IsSpelled) (h : ofMembers homes m = .ok s) : s.IsSound :=
  isSound_of_settings hhome ((ofMembers_eq_ok_iff_settings (isMapAt_of_ofMembers h)).mp h)

/-- Settings that pass are not refused when they are checked again. -/
theorem recheck_of_ofSections (hhome : homes.own.IsSpelled) (h : ofSections homes m = .ok s) :
    recheck homes s = .ok s := by
  have hsound := isSound_of_ofMembers hhome (ofSections_eq_ok_iff.mp h).1
  unfold recheck
  rw [ofValue_toValue hsound]

/-- Settings that pass have no log file in a home directory that nobody knows. -/
theorem isHomeless_of_ofMembers (h : ofMembers homes m = .ok s) :
    ∀ d ∈ destinations m, (Path.ofString d).isHomeless homes = false := by
  have hmap : m.IsMapAt "logging" := isMapAt_of_ofMembers h _ (by decide)
  have hlogging : logging? homes (.map (m.part "logging")) = .ok s.logging :=
    (member_eq_part (logging? homes) {} hmap rfl).mp (ofMembers_eq_ok_iff.mp h).1
  exact isHomeless_of_outputs hmap (logging?_eq_ok_iff.mp hlogging).2

end Again

/-- Sources give some settings exactly if they can be read and what they say together passes.  Neither the
look at homes that nobody knows nor the second check keeps anything back that passes. -/
theorem load_eq_ok_iff_ofSections (hhome : sources.home.own.IsSpelled) {s : Settings} :
    load sources = .ok s ↔ sources.IsReadable ∧ ofSections sources.home sources.all = .ok s := by
  constructor
  · intro h
    have hread := isReadable_of_load h
    rw [load_of_isReadable hread] at h
    split at h
    · cases h
    · split at h
      · rename_i s' hs'
        rw [recheck_of_ofSections hhome hs'] at h
        cases h
        exact ⟨hread, hs'⟩
      · cases h
      · cases h
  · rintro ⟨hread, hs⟩
    have hown : ¬ (destinations sources.all).any fun s => (Path.ofString s).isHomeless sources.home := by
      have hnone := isHomeless_of_ofMembers (ofSections_eq_ok_iff.mp hs).1
      simpa using hnone
    rw [load_of_isReadable hread, if_neg hown, hs]
    exact recheck_of_ofSections hhome hs

/-! ## Precedence -/

section Layers

variable (hdirect : sources.direct.IsKeyed)
  (hmaps : ∀ m ∈ sources.layers, ∀ name ∈ sectionNames, m.IsMapAt name)

include hdirect hmaps

/-- What the sources say passes exactly if each of them speaks of nothing but sections, and each setting is
given as it has to be. -/
theorem ofSections_all_eq_ok_iff {s : Settings} : ofSections sources.home sources.all = .ok s ↔
    (∀ m ∈ sources.layers, ∀ key ∈ m.keys, key ∈ sectionNames) ∧
      ∀ {α : Type} (f : Setting α), IsSetting sources.home f →
        f.from (sources.all.part f.part) = .ok (f.of s) := by
  have hsections : ∀ name ∈ sectionNames, sources.all.IsMapAt name :=
    fun name => isMapAt_all hdirect hmaps
  rw [ofSections_eq_ok_iff, ofMembers_eq_ok_iff_settings hsections, and_comm]
  refine and_congr_left fun _ => ⟨fun h m hm key hkey => h key (mem_keys_all.mpr ⟨m, hm, hkey⟩), ?_⟩
  intro h key hkey
  obtain ⟨m, hm, hkey⟩ := mem_keys_all.mp hkey
  exact h m hm key hkey

/-- Sources give some settings exactly if they can be read, speak of no section that there is not, and
give each setting by the strongest of them that has a value for it. -/
theorem load_eq_ok_iff (hhome : sources.home.own.IsSpelled) {s : Settings} : load sources = .ok s ↔
    sources.IsReadable ∧ (∀ m ∈ sources.layers, ∀ key ∈ m.keys, key ∈ sectionNames) ∧
      ∀ {α : Type} (f : Setting α), IsSetting sources.home f → f.Takes (sources.given? f) (f.of s) := by
  rw [load_eq_ok_iff_ofSections hhome, ofSections_all_eq_ok_iff hdirect hmaps]
  refine and_congr_right fun _ => and_congr_right fun _ => ⟨?_, ?_⟩
  · exact fun h α f hf => (from_all_eq_ok_iff hdirect hmaps hf _).mp (h f hf)
  · exact fun h α f hf => (from_all_eq_ok_iff hdirect hmaps hf _).mpr (h f hf)

end Layers

/-- Each setting that is loaded is the value that the strongest source has for it, checked, or its default.
Nothing else that the sources say about sections counts: other sources of which the strongest say the same
load to the same settings. -/
theorem load_by_precedence {s : Settings} (hhome : sources.home.own.IsSpelled)
    (hdirect : sources.direct.IsKeyed)
    (hmaps : ∀ m ∈ sources.layers, ∀ name ∈ sectionNames, m.IsMapAt name)
    (hload : load sources = .ok s) :
    (∀ {α : Type} (f : Setting α), IsSetting sources.home f →
      match sources.given? f with
      | some v => f.check v = .ok (f.of s)
      | none => f.of s = f.of {}) ∧
    ∀ others : Sources, others.home = sources.home → others.direct.IsKeyed →
      (∀ m ∈ others.layers, ∀ name ∈ sectionNames, m.IsMapAt name) → others.IsReadable →
      (∀ m ∈ others.layers, ∀ key ∈ m.keys, key ∈ sectionNames) →
      (∀ {α : Type} (f : Setting α), IsSetting sources.home f → others.given? f = sources.given? f) →
        load others = .ok s := by
  obtain ⟨-, -, htakes⟩ := (load_eq_ok_iff hdirect hmaps hhome).mp hload
  constructor
  · intro α f hf
    have h := htakes f hf
    cases hgiven : sources.given? f with
    | none =>
      rw [hgiven] at h
      exact h.symm
    | some v =>
      rw [hgiven] at h
      exact h
  · intro others hsame hdirect' hmaps' hread hkeys hgiven
    refine (load_eq_ok_iff hdirect' hmaps' (hsame ▸ hhome)).mpr ⟨hread, hkeys, ?_⟩
    intro α f hf
    rw [hsame] at hf
    rw [hgiven f hf]
    exact htakes f hf

/-- Sources that speak of one key and of different keys of one section. -/
def layeredSources : Sources :=
  { everywhere := { path := "/etc/config.yaml", text := some "search: {default_k: 3, use_fallback: no}" }
    project := { path := "/p/config.yaml", text := some "search: {default_k: 4}" }
    environment := [("CONTEXTDEX__SEARCH__MIN_INDEX_RESULTS", "8")]
    direct := [("search", .map [("default_k", .int 9)])]
    home := { own := Path.ofString "/home/me" } }

theorem load_layeredSources :
    ∃ s, load layeredSources = .ok s ∧ s.search.defaultCount = 9 ∧ s.search.minIndexResults = 8 ∧
      s.search.useFallback = false ∧ s.index.primarySourceDirs = ["lib"] := by
  have hloads : (load layeredSources).toOption.isSome = true := by decide +kernel
  have hdirect : layeredSources.direct.IsKeyed := by
    refine ⟨by decide, fun name => ?_⟩
    unfold Value.Members.part
    split
    · rename_i inner hget
      obtain heq := List.mem_singleton.mp (Value.Members.mem_of_get? hget)
      cases heq
      decide
    · exact List.nodup_nil
  cases hload : load layeredSources with
  | error t => rw [hload] at hloads; cases hloads
  | ok s =>
    obtain ⟨hsettled, -⟩ := load_by_precedence (Path.isSpelled_ofString "/home/me") hdirect
      (by decide +kernel) hload
    have hvalue : ∀ {α : Type} {f : Setting α} {a : α}, IsSetting layeredSources.home f →
        f.Takes (layeredSources.given? f) a → f.of s = a := by
      intro α f a hf ha
      have h := hsettled f hf
      cases hgiven : layeredSources.given? f with
      | none => rw [hgiven] at h ha; exact h.trans ha
      | some v => rw [hgiven] at h ha; exact Checked.ok.inj (h.symm.trans ha)
    exact ⟨s, rfl, hvalue .defaultCount (by decide +kernel), hvalue .minIndexResults (by decide +kernel),
      hvalue .useFallback (by decide +kernel), hvalue .primarySourceDirs (by decide +kernel)⟩

end CodeIndex.Settings
