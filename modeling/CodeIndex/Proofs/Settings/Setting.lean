import CodeIndex.Proofs.Validation.Checked
import CodeIndex.Proofs.Value.Merging
import CodeIndex.Settings.OfValue

/-!
# Single settings

Settings are told by their single settings: each is a key of a section with a check, and what a map of
sections gives for it is its value at this key, checked, or else its default.  Nothing else in the map
counts, so a section that is missing says the same as an empty one.
-/

namespace CodeIndex.Settings

open Validation Checked

/-! ## The settings of the sections -/

/-- One setting: where it stands, how its value is checked, and where it is kept. -/
structure Setting (α : Type) where
  /-- The name of the section. -/
  part : String
  key : String
  check : Value → Checked α
  of : Settings → α

/-- The settings that there are. -/
inductive IsSetting (homes : Homes) : ∀ {α : Type}, Setting α → Prop
  | logLevel : IsSetting homes ⟨"logging", "level", option levelNames, (·.logging.level)⟩
  | outputs : IsSetting homes ⟨"logging", "outputs", list (logOutput homes), (·.logging.outputs)⟩
  | host : IsSetting homes ⟨"server", "host", legibleText, (·.server.host)⟩
  | port : IsSetting homes ⟨"server", "port", port, (·.server.port)⟩
  | shutdownTimeout :
    IsSetting homes ⟨"server", "shutdown_timeout_sec", float, (·.server.shutdownTimeout)⟩
  | indexPath : IsSetting homes ⟨"index", "index_path", optional legibleText, (·.index.indexPath)⟩
  | sourceExtensions :
    IsSetting homes ⟨"index", "source_extensions", extensions, (·.index.sourceExtensions)⟩
  | templateExtensions :
    IsSetting homes ⟨"index", "template_extensions", extensions, (·.index.templateExtensions)⟩
  | excludedDirs : IsSetting homes ⟨"index", "excluded_dirs", list legibleText, (·.index.excludedDirs)⟩
  | primarySourceDirs :
    IsSetting homes ⟨"index", "primary_source_dirs", list legibleText, (·.index.primarySourceDirs)⟩
  | command : IsSetting homes ⟨"extractor", "command", list legibleText, (·.extractor.command)⟩
  | filesFlag : IsSetting homes ⟨"extractor", "files_flag", legibleText, (·.extractor.filesFlag)⟩
  | extractorTimeout : IsSetting homes ⟨"extractor", "timeout_sec", float, (·.extractor.timeout)⟩
  | debounce : IsSetting homes ⟨"watcher", "debounce_sec", float, (·.watcher.debounce)⟩
  | pollInterval : IsSetting homes ⟨"watcher", "poll_interval_sec", float, (·.watcher.pollInterval)⟩
  | defaultCount : IsSetting homes
      ⟨"search", "default_k", fun v => (intFrom 1 v).map Int.toNat, (·.search.defaultCount)⟩
  | minIndexResults :
    IsSetting homes ⟨"search", "min_index_results", natural, (·.search.minIndexResults)⟩
  | useFallback : IsSetting homes ⟨"search", "use_fallback", bool, (·.search.useFallback)⟩
  | executable : IsSetting homes ⟨"fallback", "executable", legibleText, (·.fallback.executable)⟩
  | maxCountPerFile : IsSetting homes
      ⟨"fallback", "max_count_per_file", fun v => (intFrom 1 v).map Int.toNat,
        (·.fallback.maxCountPerFile)⟩
  | smartCase : IsSetting homes ⟨"fallback", "smart_case", bool, (·.fallback.smartCase)⟩
  | fallbackTimeout : IsSetting homes ⟨"fallback", "timeout_sec", float, (·.fallback.timeout)⟩
  | testDirs : IsSetting homes ⟨"fallback", "test_dirs", list legibleText, (·.fallback.testDirs)⟩
  | longLineThreshold :
    IsSetting homes ⟨"fallback", "long_line_threshold", int, (·.fallback.longLineThreshold)⟩
  | busyTimeout : IsSetting homes ⟨"database", "busy_timeout_ms", int, (·.database.busyTimeoutMillis)⟩
  | maxRetries : IsSetting homes ⟨"database", "max_retries", int, (·.database.maxRetries)⟩
  | retryDelay :
    IsSetting homes ⟨"database", "retry_base_delay_sec", float, (·.database.retryBaseDelay)⟩

/-- What a setting is where a value is given for it, or none: the value, checked, or the default. -/
def Setting.Takes {α : Type} (f : Setting α) (given : Option Value) (a : α) : Prop :=
  match given with
  | some v => f.check v = .ok a
  | none => f.of {} = a

instance {α : Type} [DecidableEq α] (f : Setting α) (given : Option Value) (a : α) :
    Decidable (f.Takes given a) :=
  match given with
  | none => inferInstanceAs (Decidable (f.of {} = a))
  | some v =>
    match h : f.check v with
    | .ok b => decidable_of_iff (b = a) (by change _ ↔ f.check v = .ok a; rw [h, Checked.ok.injEq])
    | .faults fs => .isFalse fun hok => by change f.check v = .ok a at hok; rw [h] at hok; cases hok

def Setting.from {α : Type} (f : Setting α) (members : Value.Members) : Checked α :=
  member members f.key f.check (f.of {})

theorem from_eq_ok_iff {α : Type} {f : Setting α} {members : Value.Members} {a : α} :
    f.from members = .ok a ↔ f.Takes (members.get? f.key) a :=
  member_eq_ok_iff

theorem IsSetting.part_mem {homes : Homes} {α : Type} {f : Setting α} (h : IsSetting homes f) :
    f.part ∈ sectionNames := by
  cases h <;> simp [sectionNames]

/-- No setting is a map. -/
theorem IsSetting.check_map_ne {homes : Homes} {α : Type} {f : Setting α} (h : IsSetting homes f)
    (m : Value.Members) (a : α) : f.check (.map m) ≠ .ok a := by
  cases h <;> nofun

/-! ## The sections -/

section Sections

variable {homes : Homes} {m : Value.Members}

theorem logging?_eq_ok_iff {s : Logging} : logging? homes (.map m) = .ok s ↔
    member m "level" (option levelNames) "INFO" = .ok s.level ∧
      member m "outputs" (list (logOutput homes)) [{}] = .ok s.outputs := by
  obtain ⟨level, outputs⟩ := s
  rw [eq_ok_iff_exists]
  simp only [logging?, checkedSection, exists_seq, exists_map, Logging.mk.injEq, existsAndEq, and_true]

theorem server?_eq_ok_iff {s : Server} : server? (.map m) = .ok s ↔
    member m "host" legibleText "127.0.0.1" = .ok s.host ∧
      member m "port" port 7655 = .ok s.port ∧
      member m "shutdown_timeout_sec" float 5.0 = .ok s.shutdownTimeout := by
  obtain ⟨host, port, timeout⟩ := s
  rw [eq_ok_iff_exists]
  simp only [server?, checkedSection, exists_seq, exists_map, Server.mk.injEq, existsAndEq, and_true]

theorem index?_eq_ok_iff {s : Index} : index? (.map m) = .ok s ↔
    member m "index_path" (optional legibleText) none = .ok s.indexPath ∧
      member m "source_extensions" extensions ({} : Index).sourceExtensions = .ok s.sourceExtensions ∧
      member m "template_extensions" extensions ({} : Index).templateExtensions =
        .ok s.templateExtensions ∧
      member m "excluded_dirs" (list legibleText) ({} : Index).excludedDirs = .ok s.excludedDirs ∧
      member m "primary_source_dirs" (list legibleText) ({} : Index).primarySourceDirs =
        .ok s.primarySourceDirs := by
  obtain ⟨path, sources, templates, excluded, primary⟩ := s
  rw [eq_ok_iff_exists]
  simp only [index?, checkedSection, exists_seq, exists_map, Index.mk.injEq, existsAndEq, and_true]

theorem extractor?_eq_ok_iff {s : Extractor} : extractor? (.map m) = .ok s ↔
    member m "command" (list legibleText) [] = .ok s.command ∧
      member m "files_flag" legibleText "--files" = .ok s.filesFlag ∧
      member m "timeout_sec" float 300.0 = .ok s.timeout := by
  obtain ⟨command, flag, timeout⟩ := s
  rw [eq_ok_iff_exists]
  simp only [extractor?, checkedSection, exists_seq, exists_map, Extractor.mk.injEq, existsAndEq, and_true]

theorem watcher?_eq_ok_iff {s : Watcher} : watcher? (.map m) = .ok s ↔
    member m "debounce_sec" float 0.5 = .ok s.debounce ∧
      member m "poll_interval_sec" float 1.0 = .ok s.pollInterval := by
  obtain ⟨debounce, interval⟩ := s
  rw [eq_ok_iff_exists]
  simp only [watcher?, checkedSection, exists_seq, exists_map, Watcher.mk.injEq, existsAndEq, and_true]

theorem search?_eq_ok_iff {s : Search} : search? (.map m) = .ok s ↔
    member m "default_k" (fun v => (intFrom 1 v).map Int.toNat) 10 = .ok s.defaultCount ∧
      member m "min_index_results" natural 2 = .ok s.minIndexResults ∧
      member m "use_fallback" bool true = .ok s.useFallback := by
  obtain ⟨count, least, fallback⟩ := s
  rw [eq_ok_iff_exists]
  simp only [search?, checkedSection, exists_seq, exists_map, Search.mk.injEq, existsAndEq, and_true]

theorem fallback?_eq_ok_iff {s : Fallback} : fallback? (.map m) = .ok s ↔
    member m "executable" legibleText "rg" = .ok s.executable ∧
      member m "max_count_per_file" (fun v => (intFrom 1 v).map Int.toNat) 3 = .ok s.maxCountPerFile ∧
      member m "smart_case" bool true = .ok s.smartCase ∧
      member m "timeout_sec" float 10.0 = .ok s.timeout ∧
      member m "test_dirs" (list legibleText) ["test"] = .ok s.testDirs ∧
      member m "long_line_threshold" int 200 = .ok s.longLineThreshold := by
  obtain ⟨executable, count, smart, timeout, dirs, threshold⟩ := s
  rw [eq_ok_iff_exists]
  simp only [fallback?, checkedSection, exists_seq, exists_map, Fallback.mk.injEq, existsAndEq, and_true]

theorem database?_eq_ok_iff {s : Database} : database? (.map m) = .ok s ↔
    member m "busy_timeout_ms" int 30000 = .ok s.busyTimeoutMillis ∧
      member m "max_retries" int 3 = .ok s.maxRetries ∧
      member m "retry_base_delay_sec" float 0.1 = .ok s.retryBaseDelay := by
  obtain ⟨busy, retries, delay⟩ := s
  rw [eq_ok_iff_exists]
  simp only [database?, checkedSection, exists_seq, exists_map, Database.mk.injEq, existsAndEq, and_true]

theorem logOutput_eq_ok_iff {s : LogOutput} : logOutput homes (.map m) = .ok s ↔
    member m "format" logForm .console = .ok s.form ∧
      member m "destination" (destination homes) "stderr" = .ok s.destination ∧
      member m "level" (optional (option levelNames)) none = .ok s.level := by
  obtain ⟨form, destination, level⟩ := s
  rw [eq_ok_iff_exists]
  simp only [logOutput, checkedSection, exists_seq, exists_map, LogOutput.mk.injEq, existsAndEq,
    and_true]

theorem ofMembers_eq_ok_iff {s : Settings} : ofMembers homes m = .ok s ↔
    member m "logging" (logging? homes) {} = .ok s.logging ∧
      member m "server" server? {} = .ok s.server ∧
      member m "index" index? {} = .ok s.index ∧
      member m "extractor" extractor? {} = .ok s.extractor ∧
      member m "watcher" watcher? {} = .ok s.watcher ∧
      member m "search" search? {} = .ok s.search ∧
      member m "fallback" fallback? {} = .ok s.fallback ∧
      member m "database" database? {} = .ok s.database := by
  obtain ⟨logging, server, index, extractor, watcher, search, fallback, database⟩ := s
  rw [eq_ok_iff_exists]
  simp only [ofMembers, exists_seq, exists_map, Settings.mk.injEq, existsAndEq, and_true]

/-! ## All settings -/

/-- A section that is missing says the same as one without members. -/
theorem member_eq_part {α : Type} {name : String} {a : α} (check : Value → Checked α) (default : α)
    (h : m.IsMapAt name) (hdefault : check (.map []) = .ok default) :
    member m name check default = .ok a ↔ check (.map (m.part name)) = .ok a := by
  rw [member_eq_ok_iff]
  rcases h.cases with ⟨hnone, hpart⟩ | hsome
  · rw [hnone, hpart, hdefault]
    exact Checked.ok.injEq _ _ ▸ Iff.rfl
  · rw [hsome]

/-- Members of which those at the names of sections are maps give some settings exactly if they give
each of them. -/
theorem ofMembers_eq_ok_iff_settings {s : Settings} (h : ∀ name ∈ sectionNames, m.IsMapAt name) :
    ofMembers homes m = .ok s ↔
      ∀ {α : Type} (f : Setting α), IsSetting homes f → f.from (m.part f.part) = .ok (f.of s) := by
  simp only [sectionNames, List.forall_mem_cons] at h
  obtain ⟨hlogging, hserver, hindex, hextractor, hwatcher, hsearch, hfallback, hdatabase, -⟩ := h
  rw [ofMembers_eq_ok_iff, member_eq_part (logging? homes) {} hlogging rfl, member_eq_part server? {} hserver rfl,
    member_eq_part index? {} hindex rfl, member_eq_part extractor? {} hextractor rfl, member_eq_part watcher? {} hwatcher rfl,
    member_eq_part search? {} hsearch rfl, member_eq_part fallback? {} hfallback rfl, member_eq_part database? {} hdatabase rfl,
    logging?_eq_ok_iff, server?_eq_ok_iff, index?_eq_ok_iff, extractor?_eq_ok_iff,
    watcher?_eq_ok_iff, search?_eq_ok_iff, fallback?_eq_ok_iff, database?_eq_ok_iff]
  constructor
  · rintro ⟨⟨_, _⟩, ⟨_, _, _⟩, ⟨_, _, _, _, _⟩, ⟨_, _, _⟩, ⟨_, _⟩, ⟨_, _, _⟩, ⟨_, _, _, _, _, _⟩, _, _, _⟩
      α f hf
    cases hf <;> assumption
  · intro h
    exact ⟨⟨h _ .logLevel, h _ .outputs⟩, ⟨h _ .host, h _ .port, h _ .shutdownTimeout⟩,
      ⟨h _ .indexPath, h _ .sourceExtensions, h _ .templateExtensions, h _ .excludedDirs,
        h _ .primarySourceDirs⟩,
      ⟨h _ .command, h _ .filesFlag, h _ .extractorTimeout⟩, ⟨h _ .debounce, h _ .pollInterval⟩,
      ⟨h _ .defaultCount, h _ .minIndexResults, h _ .useFallback⟩,
      ⟨h _ .executable, h _ .maxCountPerFile, h _ .smartCase, h _ .fallbackTimeout, h _ .testDirs,
        h _ .longLineThreshold⟩,
      h _ .busyTimeout, h _ .maxRetries, h _ .retryDelay⟩

end Sections

end CodeIndex.Settings
