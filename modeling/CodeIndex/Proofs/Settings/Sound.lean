import CodeIndex.Proofs.Path
import CodeIndex.Proofs.Settings.Setting

/-!
# Settings that pass again

Settings that came through their checks are within their bounds: names are among the known ones, numbers
in their ranges, extensions have their dots, and log files absolute paths.  Such settings pass the checks
a second time, as they are written, and come out unchanged.
-/

namespace CodeIndex

open Validation Checked

namespace Path

theorem isSpelled_append {home : Path} {first : String} {rest : List String} (hhome : home.IsSpelled)
    {p : Path} (hp : p.IsSpelled) (hnames : p.names = first :: rest) :
    IsSpelled { home with names := home.names ++ rest } := by
  refine ⟨hhome.root, fun name hname => ?_⟩
  rcases List.mem_append.mp hname with hname | hname
  · exact hhome.names name hname
  · exact hp.names name (hnames ▸ List.mem_cons_of_mem _ hname)

theorem isSpelled_of_expanded {homes : Homes} (hhome : homes.own.IsSpelled) {p q : Path}
    (hp : p.IsSpelled) (h : expanded homes p = .ok (some q)) : q.IsSpelled := by
  unfold expanded at h
  split at h
  · cases h
    exact hp
  · rename_i first rest hnames
    split at h
    · cases h
      exact hp
    · split at h
      · cases h
        exact isSpelled_append hhome hp hnames
      · cases hfound : homes.others (Text.withoutStart first "~") with
        | error reason => rw [hfound] at h; cases h
        | ok found =>
          rw [hfound] at h
          cases found with
          | none => cases h
          | some home =>
            cases h
            exact isSpelled_append (isSpelled_ofString home) hp hnames

theorem expanded_of_isAbsolute {homes : Homes} {p : Path} (h : p.isAbsolute = true) :
    expanded homes p = .ok (some p) := by
  have hroot : (p.root != "") = true := h
  unfold expanded
  split
  · rfl
  · rw [hroot]
    rfl

end Path

namespace Settings

variable {homes : Homes}

/-! ## Single checks -/

/-- Where log lines may go: a stream, or a file by its absolute path. -/
def IsDestination (s : String) : Prop :=
  s = "stderr" ∨ s = "stdout" ∨ ∃ p : Path, p.IsSpelled ∧ p.isAbsolute = true ∧ s = p.toString

theorem isDestination_of_destination (hhome : homes.own.IsSpelled) {v : Value} {s : String}
    (h : destination homes v = .ok s) : IsDestination s := by
  obtain ⟨t, -, ht⟩ := andThen_eq_ok_iff.mp h
  split at ht
  · rename_i hstream
    injection ht with ht
    rw [Bool.or_eq_true, beq_iff_eq, beq_iff_eq, ht] at hstream
    exact hstream.elim .inl fun h => .inr (.inl h)
  · split at ht
    · rename_i path hpath
      split at ht
      · rename_i habs
        injection ht with ht
        have hspelled := Path.isSpelled_of_expanded hhome (Path.isSpelled_ofString t) hpath
        exact .inr (.inr ⟨path, hspelled, habs, ht.symm⟩)
      · cases ht
    · cases ht
    · cases ht

theorem destination_text {s : String} (h : IsDestination s) : destination homes (.text s) = .ok s := by
  refine andThen_eq_ok_iff.mpr ⟨s, rfl, ?_⟩
  rcases h with rfl | rfl | ⟨p, hp, habs, rfl⟩
  · rfl
  · rfl
  · have hexpanded : Path.expanded homes p = .ok (some p) := Path.expanded_of_isAbsolute habs
    rw [Path.ofString_toString hp, hexpanded]
    dsimp only
    rw [if_pos habs, ite_self]

theorem port_nat {n : Nat} (h : n ≤ 65535) : port (.nat n) = .ok n := by
  refine andThen_eq_ok_iff.mpr ⟨n, rfl, ?_⟩
  rw [if_pos (by simp; omega)]
  rfl

theorem le_of_port {v : Value} {n : Nat} (h : port v = .ok n) : n ≤ 65535 := by
  obtain ⟨m, -, hm⟩ := andThen_eq_ok_iff.mp h
  split at hm
  · rename_i hrange
    injection hm with hm
    simp only [Bool.and_eq_true, decide_eq_true_eq] at hrange
    omega
  · cases hm

theorem count_nat {n : Nat} (h : 1 ≤ n) : (intFrom 1 (.nat n)).map Int.toNat = .ok n := by
  rw [Value.nat, intFrom_int (by omega)]
  rfl

theorem le_of_count {v : Value} {n : Nat} (h : (intFrom 1 v).map Int.toNat = .ok n) : 1 ≤ n := by
  obtain ⟨m, hm, rfl⟩ := map_eq_ok_iff.mp h
  have := le_of_intFrom hm
  omega

theorem startsWith_dotted (s : String) : Text.startsWith (dotted s) "." = true := by
  unfold dotted
  split
  · assumption
  · unfold Text.startsWith
    rw [String.toList_append]
    rfl

theorem dotted_of_startsWith {s : String} (h : Text.startsWith s "." = true) : dotted s = s :=
  if_pos h

theorem extensions_texts {items : List String} (h : ∀ s ∈ items, Text.startsWith s "." = true) :
    extensions (.texts items) = .ok items := by
  refine map_eq_ok_iff.mpr ⟨items, list_texts, ?_⟩
  exact (List.map_congr_left (g := id) fun s hs => dotted_of_startsWith (h s hs)).trans (List.map_id _)

theorem startsWith_of_extensions {v : Value} {items : List String} (h : extensions v = .ok items) :
    ∀ s ∈ items, Text.startsWith s "." = true := by
  obtain ⟨texts, -, rfl⟩ := map_eq_ok_iff.mp h
  exact List.forall_mem_map.mpr fun s _ => startsWith_dotted s

/-! ## Settings within their bounds -/

/-- A log output as the checks leave it. -/
structure LogOutput.IsSound (o : LogOutput) : Prop where
  destination : IsDestination o.destination
  level : ∀ level ∈ o.level, level ∈ levelNames

/-- Settings as the checks leave them. -/
structure IsSound (s : Settings) : Prop where
  logLevel : s.logging.level ∈ levelNames
  outputs : ∀ o ∈ s.logging.outputs, o.IsSound
  port : s.server.port ≤ 65535
  sourceExtensions : ∀ e ∈ s.index.sourceExtensions, Text.startsWith e "." = true
  templateExtensions : ∀ e ∈ s.index.templateExtensions, Text.startsWith e "." = true
  defaultCount : 1 ≤ s.search.defaultCount
  maxCountPerFile : 1 ≤ s.fallback.maxCountPerFile

/-- An output that passed its check passes it again. -/
theorem LogOutput.isSound_of_logOutput (hhome : homes.own.IsSpelled) {v : Value} {o : LogOutput}
    (h : logOutput homes v = .ok o) : o.IsSound := by
  cases v with
  | map m =>
    obtain ⟨-, hdestination, hlevel⟩ := logOutput_eq_ok_iff.mp h
    constructor
    · rw [member_eq_ok_iff] at hdestination
      split at hdestination
      · exact isDestination_of_destination hhome hdestination
      · exact .inl hdestination.symm
    · rw [member_eq_ok_iff] at hlevel
      intro level hmem
      rw [Option.mem_def] at hmem
      split at hlevel
      · rename_i v _
        unfold Validation.optional at hlevel
        split at hlevel
        · rw [hmem] at hlevel
          cases hlevel
        · obtain ⟨name, hname, heq⟩ := map_eq_ok_iff.mp hlevel
          rw [hmem] at heq
          exact Option.some.inj heq ▸ mem_of_option hname
      · rw [hmem] at hlevel
        cases hlevel
  | _ => cases h

/-- A property of all that a setting's check lets through and of its default is one of what members
give for it. -/
theorem Setting.from_induction {α : Type} {f : Setting α} (P : α → Prop) {members : Value.Members}
    {a : α} (h : f.from members = .ok a) (hcheck : ∀ v a, f.check v = .ok a → P a)
    (hdefault : P (f.of {})) : P a := by
  rw [from_eq_ok_iff] at h
  cases hgiven : members.get? f.key with
  | none =>
    rw [hgiven] at h
    exact (h : f.of {} = a) ▸ hdefault
  | some v =>
    rw [hgiven] at h
    exact hcheck v a h

/-- Settings that pass are within their bounds. -/
theorem isSound_of_settings (hhome : homes.own.IsSpelled) {m : Value.Members} {s : Settings}
    (h : ∀ {α : Type} (f : Setting α), IsSetting homes f → f.from (m.part f.part) = .ok (f.of s)) :
    s.IsSound where
  logLevel :=
    Setting.from_induction (· ∈ levelNames) (h _ .logLevel) (fun _ _ => mem_of_option) (by decide)
  outputs := by
    refine Setting.from_induction (∀ o ∈ ·, LogOutput.IsSound o) (h _ .outputs)
      (fun v outputs hlist => ?_) ?_
    · cases v with
      | list items =>
        intro o ho
        obtain ⟨v, -, hv⟩ := exists_of_all hlist ho
        exact LogOutput.isSound_of_logOutput hhome hv
      | _ => cases hlist
    · exact List.forall_mem_singleton.mpr ⟨.inl rfl, nofun⟩
  port := Setting.from_induction (· ≤ 65535) (h _ .port) (fun _ _ => le_of_port) (by decide)
  sourceExtensions :=
    Setting.from_induction (∀ e ∈ ·, Text.startsWith e "." = true) (h _ .sourceExtensions)
      (fun _ _ => startsWith_of_extensions) (by decide)
  templateExtensions :=
    Setting.from_induction (∀ e ∈ ·, Text.startsWith e "." = true) (h _ .templateExtensions)
      (fun _ _ => startsWith_of_extensions) (by decide)
  defaultCount :=
    Setting.from_induction (1 ≤ ·) (h _ .defaultCount) (fun _ _ => le_of_count) (by decide)
  maxCountPerFile :=
    Setting.from_induction (1 ≤ ·) (h _ .maxCountPerFile) (fun _ _ => le_of_count) (by decide)

/-! ## Checking settings again -/

theorem logForm_label (form : LogForm) : logForm (.text form.label) = .ok form := by
  cases form <;> rfl

theorem optional_level {level : Option String} (h : ∀ l ∈ level, l ∈ levelNames) :
    Validation.optional (option levelNames) (.ofText? level) = .ok level := by
  cases level with
  | none => rfl
  | some l => exact map_eq_ok_iff.mpr ⟨l, option_text (h l rfl), rfl⟩

theorem LogOutput.logOutput_toValue {o : LogOutput} (h : o.IsSound) :
    logOutput homes o.toValue = .ok o :=
  logOutput_eq_ok_iff.mpr ⟨member_eq_ok_iff.mpr (logForm_label o.form),
    member_eq_ok_iff.mpr (destination_text h.destination), member_eq_ok_iff.mpr (optional_level h.level)⟩

theorem list_outputs {outputs : List LogOutput} (h : ∀ o ∈ outputs, o.IsSound) :
    list (logOutput homes) (.list (outputs.map LogOutput.toValue)) = .ok outputs := by
  refine all_eq_ok_iff.mpr ?_
  rw [List.forall₂_map_left_iff, List.forall₂_same]
  exact fun o ho => LogOutput.logOutput_toValue (h o ho)

/-- Settings within their bounds pass the check as they are written, unchanged. -/
theorem ofValue_toValue {s : Settings} (h : s.IsSound) : ofValue homes s.toValue = .ok s := by
  have hlogging : logging? homes s.logging.toValue = .ok s.logging :=
    logging?_eq_ok_iff.mpr ⟨member_eq_ok_iff.mpr (option_text h.logLevel),
      member_eq_ok_iff.mpr (list_outputs h.outputs)⟩
  have hserver : server? s.server.toValue = .ok s.server :=
    server?_eq_ok_iff.mpr ⟨rfl, member_eq_ok_iff.mpr (port_nat h.port), rfl⟩
  have hindex : index? s.index.toValue = .ok s.index :=
    index?_eq_ok_iff.mpr ⟨member_eq_ok_iff.mpr (optional_legibleText_ofText? _),
      member_eq_ok_iff.mpr (extensions_texts h.sourceExtensions),
      member_eq_ok_iff.mpr (extensions_texts h.templateExtensions), member_eq_ok_iff.mpr list_texts,
      member_eq_ok_iff.mpr list_texts⟩
  have hextractor : extractor? s.extractor.toValue = .ok s.extractor :=
    extractor?_eq_ok_iff.mpr ⟨member_eq_ok_iff.mpr list_texts, rfl, rfl⟩
  have hwatcher : watcher? s.watcher.toValue = .ok s.watcher := watcher?_eq_ok_iff.mpr ⟨rfl, rfl⟩
  have hsearch : search? s.search.toValue = .ok s.search :=
    search?_eq_ok_iff.mpr ⟨member_eq_ok_iff.mpr (count_nat h.defaultCount),
      member_eq_ok_iff.mpr (natural_nat _), rfl⟩
  have hfallback : fallback? s.fallback.toValue = .ok s.fallback :=
    fallback?_eq_ok_iff.mpr ⟨rfl, member_eq_ok_iff.mpr (count_nat h.maxCountPerFile), rfl, rfl,
      member_eq_ok_iff.mpr list_texts, rfl⟩
  have hdatabase : database? s.database.toValue = .ok s.database :=
    database?_eq_ok_iff.mpr ⟨rfl, rfl, rfl⟩
  exact ofMembers_eq_ok_iff.mpr ⟨member_eq_ok_iff.mpr hlogging, member_eq_ok_iff.mpr hserver,
    member_eq_ok_iff.mpr hindex, member_eq_ok_iff.mpr hextractor, member_eq_ok_iff.mpr hwatcher,
    member_eq_ok_iff.mpr hsearch, member_eq_ok_iff.mpr hfallback, member_eq_ok_iff.mpr hdatabase⟩

end Settings

end CodeIndex
