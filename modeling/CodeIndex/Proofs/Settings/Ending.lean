import CodeIndex.Proofs.Settings.Precedence

/-!
# How loading ends

Loading ends with settings, with a failure that names the file or the setting at fault, or with a mishap.
A mishap has one of six causes: a file whose text cannot be had, one at which the reader of YAML stops
without a verdict, a variable of the environment that cannot be read, a name at the top of a file that is
not a text, a log file in a home directory that nobody knows, or a value at fault that cannot be shown.
Otherwise what is wrong is always told by a failure.
-/

namespace CodeIndex.Settings

open Validation Checked

variable {sources : Sources}

/-! ## Checks that do not pass say why -/

/-- What stops whoever reads a file before there is a verdict on it: its text cannot be had, or the reader
of YAML stops. -/
inductive ConfigFile.Stops (yaml : Yaml.Reader) (file : ConfigFile) : Mishap → Prop
  | obstacle {m : Mishap} (h : file.obstacle = some m) : Stops yaml file m
  | reader {s : String} {m : Mishap} (hnone : file.obstacle = none) (htext : file.text = some s)
      (h : yaml.read (Text.withLineFeeds s) = .error (.stopped m)) : Stops yaml file m

/-- A file that cannot be read is refused, or its reading is stopped. -/
theorem ConfigFile.cases_of_read {yaml : Yaml.Reader} {file : ConfigFile} {t : Trouble}
    (h : file.read yaml = .error t) :
    (∃ reason, t = .failure (.configUnreadable file.path reason)) ∨
      ∃ m, t = .mishap m ∧ file.Stops yaml m := by
  unfold read at h
  split at h
  · rename_i hobstacle
    cases h
    exact .inr ⟨_, rfl, .obstacle hobstacle⟩
  · cases h
  · rename_i s hnone htext
    split at h
    · cases h
      exact .inl ⟨_, rfl⟩
    · rename_i m hstopped
      cases h
      exact .inr ⟨m, rfl, .reader hnone htext hstopped⟩
    · split at h
      · cases h
      · split at h
        · cases h
        · cases h
          exact .inl ⟨_, rfl⟩

/-- What ends the reading of a variable of a section. -/
def IsUnread (name : String) (m : Mishap) : Prop :=
  m = .unreadableVariable name ∨ m = .nestedTooDeep

theorem isUnread_of_jsonOf {depth : Nat} {name text : String} {m : Mishap}
    (h : jsonOf depth name text = .error m) :
    IsUnread name m := by
  unfold jsonOf at h
  split at h <;> cases h
  · exact .inr rfl
  · exact .inl rfl

/-- What ends the reading of single settings is a variable whose JSON cannot be read. -/
theorem isUnread_of_singleSettings {depth : Nat} {name : String} {fields : List (String × Bool)}
    {entries : List (String × String)} {members : Value.Members} {m : Mishap}
    (h : singleSettings depth name fields entries members = .error m) : IsUnread name m := by
  induction entries generalizing members with
  | nil => cases h
  | cons entry rest ih =>
    obtain ⟨key, text⟩ := entry
    rw [singleSettings] at h
    dsimp only at h
    split at h
    · revert h
      generalize steps _ = path
      intro h
      cases hvalue : settingValue depth name fields path.dropLast (path.getLast?.getD "") text with
      | error e =>
        rw [hvalue] at h
        cases h
        unfold settingValue at hvalue
        split at hvalue
        · exact isUnread_of_jsonOf hvalue
        · cases hvalue
      | ok v =>
        rw [hvalue] at h
        exact ih h
    · exact ih h

theorem isUnread_of_sectionOf {depth : Nat} {name : String} {fields : List (String × Bool)}
    {entries : List (String × String)} {m : Mishap}
    (h : sectionOf depth entries name fields = .error m) : IsUnread name m := by
  unfold sectionOf at h
  split at h
  · cases hsingle : singleSettings depth name fields entries [] with
    | error e => rw [hsingle] at h; cases h; exact isUnread_of_singleSettings hsingle
    | ok members => rw [hsingle] at h; cases h
  · rename_i text _
    cases hjson : jsonOf depth name text with
    | error e => rw [hjson] at h; cases h; exact isUnread_of_jsonOf hjson
    | ok v =>
      rw [hjson] at h
      cases v with
      | map base =>
        cases hsingle : singleSettings depth name fields entries [] with
        | error e =>
          simp only [bind, Except.bind, hsingle] at h
          cases h
          exact isUnread_of_singleSettings hsingle
        | ok members => simp only [bind, Except.bind, hsingle] at h; cases h
      | _ => cases h

/-- An environment that cannot be read has a variable of a section that cannot be read. -/
theorem isUnread_of_ofEnvironment {depth : Nat} {entries : List (String × String)}
    {names : List (String × List (String × Bool))} {m : Mishap}
    (h : ofEnvironment.go depth entries names = .error m) : ∃ name ∈ names.map Prod.fst, IsUnread name m := by
  induction names with
  | nil => cases h
  | cons entry rest ih =>
    obtain ⟨name, fields⟩ := entry
    have later : ofEnvironment.go depth entries rest = .error m →
        ∃ k ∈ ((name, fields) :: rest).map Prod.fst, IsUnread k m := by
      intro hrest
      obtain ⟨k, hk, hm⟩ := ih hrest
      exact ⟨k, List.mem_cons_of_mem _ hk, hm⟩
    rw [ofEnvironment.go] at h
    cases hsection : sectionOf depth entries name fields with
    | error e =>
      rw [hsection] at h
      cases h
      exact ⟨name, List.mem_cons_self, isUnread_of_sectionOf hsection⟩
    | ok said =>
      rw [hsection] at h
      cases said with
      | none => exact later h
      | some v =>
        cases hrest : ofEnvironment.go depth entries rest with
        | error e => rw [hrest] at h; cases h; exact later hrest
        | ok members => rw [hrest] at h; cases h

/-! ## How loading ends -/

/-- How loading fails: a file is not well-formed, or a setting is not as it has to be. -/
inductive Sources.Refuses (sources : Sources) : Failure → Prop
  | file {file : ConfigFile} {reason : String} (hfile : file ∈ [sources.everywhere, sources.project])
      (h : file.read sources.yaml = .error (.failure (.configUnreadable file.path reason))) :
    Refuses sources (.configUnreadable file.path reason)
  | fault {fault : Fault} {rest : List Fault} {value : String}
      (h : ofSections sources.home sources.all = .faults (fault :: rest))
      (hvalue : shown? sources.depth fault.input = .ok value) :
    Refuses sources (.configInvalid fault.location value fault.complaint.message)

/-- What makes loading end otherwise. -/
inductive Sources.Escapes (sources : Sources) : Mishap → Prop
  | file {file : ConfigFile} {m : Mishap} (hfile : file ∈ [sources.everywhere, sources.project])
      (h : file.Stops sources.yaml m) : Escapes sources m
  | environment {name : String} {m : Mishap} (hname : name ∈ sectionNames) (hm : IsUnread name m)
      (h : ofEnvironment sources.environment sources.depth = .error m) : Escapes sources m
  | keys {file : ConfigFile} {m : Value.Members} (hfile : file ∈ [sources.everywhere, sources.project])
      (h : file.read sources.yaml = .ok (m, false)) :
    Escapes sources (.wrongType "keywords must be strings")
  | home {s : String} (hs : s ∈ destinations sources.all)
      (h : (Path.ofString s).isHomeless sources.home = true) : Escapes sources (.other unknownHome)
  | shown {fault : Fault} {rest : List Fault} {m : Mishap}
      (h : ofSections sources.home sources.all = .faults (fault :: rest))
      (hm : shown? sources.depth fault.input = .error m) : Escapes sources m

theorem escapes_of_environment {m : Mishap}
    (h : ofEnvironment sources.environment sources.depth = .error m) : sources.Escapes m := by
  obtain ⟨name, hname, hm⟩ := isUnread_of_ofEnvironment h
  exact .environment hname hm h

/-- A file that cannot be read obstructs loading by a refusal or an escape. -/
theorem Sources.cases_of_read {file : ConfigFile} {t : Trouble}
    (hfile : file ∈ [sources.everywhere, sources.project]) (h : file.read sources.yaml = .error t) :
    (∃ f, t = .failure f ∧ sources.Refuses f) ∨ ∃ m, t = .mishap m ∧ sources.Escapes m := by
  rcases file.cases_of_read h with ⟨reason, rfl⟩ | ⟨m, rfl, hstops⟩
  · exact .inl ⟨_, rfl, .file hfile h⟩
  · exact .inr ⟨m, rfl, .file hfile hstops⟩

/-- What obstructs loading is a file that is refused or an escape. -/
theorem Sources.Obstructs.cases {t : Trouble} (h : sources.Obstructs t) :
    (∃ f, t = .failure f ∧ sources.Refuses f) ∨ ∃ m, t = .mishap m ∧ sources.Escapes m := by
  cases h with
  | everywhere h => exact cases_of_read (by simp) h
  | project h => exact cases_of_read (by simp) h
  | environment h => exact .inr ⟨_, rfl, escapes_of_environment h⟩
  | keys hfile h => exact .inr ⟨_, rfl, .keys hfile h⟩

end CodeIndex.Settings
