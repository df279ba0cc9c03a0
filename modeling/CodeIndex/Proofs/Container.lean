import CodeIndex.LineSearch.Heuristics
import CodeIndex.Proofs.Path
import CodeIndex.Template.Basic

/-!
# Containers and the spelling of paths

A container is named by the names on a path from a source directory on.  How the path spells them does
not count: slashes or backslashes, one or two of them, dots between them, or directories before the first
source directory.  Nor does it count who asks for it, as long as there is a container.
-/

namespace CodeIndex

/-! ## Names on both sides of a slash -/

namespace Path

theorem namesIn_append_slash (before after : String) :
    namesIn (before ++ "/" ++ after) = namesIn before ++ namesIn after := by
  have hpieces : Text.pieces '/' (before ++ "/" ++ after) =
      Text.pieces '/' before ++ Text.pieces '/' after := by
    simp only [Text.pieces, Text.piecesBy_eq_splitOnP, String.toList_append, List.append_assoc]
    rw [show "/".toList ++ after.toList = '/' :: after.toList from rfl,
      List.splitOnP_append_cons _ _ (by decide), List.map_append]
  rw [namesIn, hpieces, List.filter_append]
  rfl

/-- A text without slashes spells no other name than itself. -/
theorem eq_of_mem_namesIn {s name : String} (h : '/' ∉ s.toList) (hname : name ∈ namesIn s) :
    name = s := by
  have hpieces : Text.pieces '/' s = [s] := by
    have hcut : s.toList.splitOnP (· == '/') = [s.toList] :=
      List.splitOnP_eq_singleton fun c hc => beq_eq_false_iff_ne.mpr fun he => h (he ▸ hc)
    rw [Text.pieces, Text.piecesBy_eq_splitOnP, hcut, List.map_singleton, String.ofList_toList]
  have hpiece := (List.mem_filter.mp hname).1
  rw [hpieces] at hpiece
  exact List.mem_singleton.mp hpiece

/-- The parts of a path are its names, after the slashes of its root if it has one. -/
theorem parts_ofString (s : String) :
    ∃ root : List String, (∀ part ∈ root, '/' ∈ part.toList) ∧ (ofString s).parts = root ++ namesIn s := by
  have hparts : (ofString s).parts = if rootOf s.toList == "" then namesIn s
      else rootOf s.toList :: namesIn s := rfl
  rw [hparts]
  rcases rootOf_cases s.toList with hroot | hroot | hroot <;> rw [hroot]
  · exact ⟨[], nofun, rfl⟩
  · exact ⟨["/"], by decide, rfl⟩
  · exact ⟨["//"], by decide, rfl⟩

end Path

/-! ## Containers of names -/

variable {sourceDirs extensions names above : List String} {path spelled : String}

/-- A text with slashes in place of backslashes. -/
def slashed (s : String) : String :=
  String.ofList (s.toList.map fun c => if c == '\\' then '/' else c)

def namesOf (s : String) : List String :=
  Path.namesIn (slashed s)

def containerOfNames? (sourceDirs extensions names : List String) : Option String :=
  let name := names.getLast?.getD ""
  let stem := String.ofList (name.toList.takeWhile (· != '.'))
  if extensions.any (Text.endsWith name) then
    (belowSource? sourceDirs names).bind fun rest =>
      if stem == "" then none else some (".".intercalate ((rest.dropLast ++ [stem]).map camelize))
  else none

theorem belowSource?_append (h : ∀ part ∈ above, part ∉ sourceDirs) (names : List String) :
    belowSource? sourceDirs (above ++ names) = belowSource? sourceDirs names := by
  induction above with
  | nil => rfl
  | cons part rest ih =>
    obtain ⟨hpart, hrest⟩ := List.forall_mem_cons.mp h
    rw [List.cons_append, belowSource?, if_neg (by simp [hpart]), ih hrest]

/-- What stands before the first source directory does not count. -/
theorem containerOfNames?_append (h : ∀ part ∈ above, part ∉ sourceDirs) (names : List String) :
    containerOfNames? sourceDirs extensions (above ++ names) =
      containerOfNames? sourceDirs extensions names := by
  unfold containerOfNames?
  rw [belowSource?_append h]
  cases names with
  | nil =>
    -- There is no source directory at all, so that the last name does not count either.
    simp [belowSource?]
  | cons name rest =>
    rw [List.getLast?_append, List.getLast?_cons, Option.some_or]

theorem containerOfPath_eq_getD (hdirs : ∀ dir ∈ sourceDirs, '/' ∉ dir.toList) (path : String)
    (extensions : List String) (fallback : String) :
    containerOfPath path sourceDirs extensions fallback =
      (containerOfNames? sourceDirs extensions (namesOf path)).getD fallback := by
  have hparts : containerOfPath path sourceDirs extensions fallback =
      (containerOfNames? sourceDirs extensions (Path.ofString (slashed path)).parts).getD fallback := by
    unfold containerOfPath containerOfNames? slashed
    dsimp only
    generalize (Path.ofString _).parts = parts
    split
    · cases belowSource? sourceDirs parts with
      | none => rfl
      | some rest =>
        rw [Option.bind_some]
        dsimp only
        split <;> rfl
    · rfl
  -- A root is a part of a path too, but with its slash it cannot be a source directory.
  obtain ⟨root, hroot, hnames⟩ := Path.parts_ofString (slashed path)
  rw [hparts, hnames, containerOfNames?_append fun part hpart hdir => hdirs part hdir (hroot part hpart)]
  rfl

/-! ## Spellings -/

def separators : List String :=
  ["/", "\\", "//", "/./"]

/-- The spellings of a path for somebody who looks for source directories: separators stand for each
other, and directories that are no source directories may stand before it. -/
inductive Respelled (sourceDirs : List String) (path : String) : String → Prop
  | same : Respelled sourceDirs path path
  | between (before after old new : String) (hold : old ∈ separators) (hnew : new ∈ separators)
      (h : Respelled sourceDirs path (before ++ old ++ after)) :
    Respelled sourceDirs path (before ++ new ++ after)
  | inside (dir : String) {spelled : String} (hdir : dir ∉ sourceDirs) (hslash : '/' ∉ dir.toList)
      (hbackslash : '\\' ∉ dir.toList) (h : Respelled sourceDirs path spelled) :
    Respelled sourceDirs path (dir ++ "/" ++ spelled)

theorem slashed_append (before after : String) :
    slashed (before ++ after) = slashed before ++ slashed after := by
  unfold slashed
  rw [String.toList_append, List.map_append, String.ofList_append]

theorem slashed_of_not_mem {s : String} (h : '\\' ∉ s.toList) : slashed s = s := by
  have hsame : s.toList.map (fun c => if c == '\\' then '/' else c) = s.toList :=
    (List.map_congr_left fun c hc => by
      have hother : c ≠ '\\' := fun he => h (he ▸ hc)
      simp [hother]).trans (List.map_id _)
  rw [slashed, hsame, String.ofList_toList]

theorem namesOf_append_slash (before after : String) :
    namesOf (before ++ "/" ++ after) = namesOf before ++ namesOf after := by
  rw [namesOf, slashed_append, slashed_append, show slashed "/" = "/" by decide]
  exact Path.namesIn_append_slash _ _

/-- A separator adds no name. -/
theorem namesOf_append {separator : String} (h : separator ∈ separators) (before after : String) :
    namesOf (before ++ separator ++ after) = namesOf before ++ namesOf after := by
  have hempty : namesOf "" = [] := by decide
  have hdot : namesOf "." = [] := by decide
  simp only [separators, List.mem_cons, List.not_mem_nil, or_false] at h
  rcases h with rfl | rfl | rfl | rfl
  · exact namesOf_append_slash before after
  · rw [namesOf, slashed_append, slashed_append, show slashed "\\" = "/" by decide]
    exact Path.namesIn_append_slash _ _
  · rw [show before ++ "//" ++ after = before ++ "/" ++ "" ++ "/" ++ after by
        simp only [String.append_assoc]; rfl,
      namesOf_append_slash, namesOf_append_slash, hempty, List.append_nil]
  · rw [show before ++ "/./" ++ after = before ++ "/" ++ "." ++ "/" ++ after by
        simp only [String.append_assoc]; rfl,
      namesOf_append_slash, namesOf_append_slash, hdot, List.append_nil]

/-- Spellings of a path spell its names, and before them no source directories. -/
theorem exists_of_respelled (h : Respelled sourceDirs path spelled) :
    ∃ above : List String, (∀ part ∈ above, part ∉ sourceDirs) ∧
      namesOf spelled = above ++ namesOf path := by
  -- One separator for another leaves the names as they are, and a directory adds its own in front.
  induction h with
  | same => exact ⟨[], nofun, (List.nil_append _).symm⟩
  | between before after old new hold hnew _ ih =>
    obtain ⟨above, habove, hnames⟩ := ih
    rw [namesOf_append hold] at hnames
    exact ⟨above, habove, by rw [namesOf_append hnew, hnames]⟩
  | inside dir hdir hslash hbackslash _ ih =>
    obtain ⟨above, habove, hnames⟩ := ih
    have hown : ∀ part ∈ namesOf dir, part ∉ sourceDirs := by
      rw [namesOf, slashed_of_not_mem hbackslash]
      intro part hpart
      rwa [Path.eq_of_mem_namesIn hslash hpart]
    refine ⟨namesOf dir ++ above, List.forall_mem_append.mpr ⟨hown, habove⟩, ?_⟩
    rw [namesOf_append_slash, hnames, List.append_assoc]

/-! ## Containers -/

theorem container_of_entity {content : String} {e : Entity}
    (h : Template.entity path content sourceDirs extensions = .ok e) :
    e.container = containerOfPath path sourceDirs extensions "Template" := by
  unfold Template.entity at h
  split at h
  · cases h
  · cases h
    rfl

theorem exists_entity (h : path ≠ "") (content : String) (sourceDirs extensions : List String) :
    ∃ e, Template.entity path content sourceDirs extensions = .ok e := by
  unfold Template.entity
  rw [if_neg (by simpa using h)]
  exact ⟨_, rfl⟩

/-- The container of a path does not depend on how the path is spelled, and a line match and a template at
the path have the same one, if either of them has any. -/
theorem containerOfPath_of_spelling (hdirs : ∀ dir ∈ sourceDirs, '/' ∉ dir.toList) (path : String)
    (extensions : List String) :
    (∀ spelled fallback, Respelled sourceDirs path spelled →
      containerOfPath spelled sourceDirs extensions fallback =
        containerOfPath path sourceDirs extensions fallback) ∧
    ∀ content, (LineSearch.containerOf path sourceDirs extensions ≠ "Unknown" ∨
        ∃ e, Template.entity path content sourceDirs extensions = .ok e ∧ e.container ≠ "Template") →
      ∃ e, Template.entity path content sourceDirs extensions = .ok e ∧
        e.container = LineSearch.containerOf path sourceDirs extensions := by
  constructor
  · intro spelled fallback hspelled
    obtain ⟨above, habove, hnames⟩ := exists_of_respelled hspelled
    rw [containerOfPath_eq_getD hdirs, containerOfPath_eq_getD hdirs, hnames,
      containerOfNames?_append habove]
  · intro content heither
    have hlines : LineSearch.containerOf path sourceDirs extensions =
        (containerOfNames? sourceDirs extensions (namesOf path)).getD "Unknown" :=
      containerOfPath_eq_getD hdirs path extensions "Unknown"
    have htemplate : ∀ e, Template.entity path content sourceDirs extensions = .ok e →
        e.container = (containerOfNames? sourceDirs extensions (namesOf path)).getD "Template" :=
      fun e he => (container_of_entity he).trans (containerOfPath_eq_getD hdirs path extensions "Template")
    -- Both speak of the same names, and only differ in what they say where these have no container.
    cases hcontainer : containerOfNames? sourceDirs extensions (namesOf path) with
    | none =>
      rw [hcontainer] at hlines htemplate
      rcases heither with hnamed | ⟨e, he, hnamed⟩
      · exact absurd hlines hnamed
      · exact absurd (htemplate e he) hnamed
    | some container =>
      rw [hcontainer] at hlines htemplate
      -- Names with a container are some names, so that the path is not empty and has an entity.
      have hpath : path ≠ "" := by
        rintro rfl
        rw [show namesOf "" = [] by decide] at hcontainer
        simp [containerOfNames?, belowSource?] at hcontainer
      obtain ⟨e, he⟩ := exists_entity hpath content sourceDirs extensions
      exact ⟨e, he, (htemplate e he).trans hlines.symm⟩

theorem containerOfPath_of_respelled_user :
    (∀ dir ∈ ["lib"], '/' ∉ dir.toList) ∧
      containerOfPath "apps\\web//lib/./my_app/user.ex" ["lib"] [".ex"] "Unknown" =
        containerOfPath "lib/my_app/user.ex" ["lib"] [".ex"] "Unknown" ∧
      ∃ e, Template.entity "lib/my_app/user.ex" "<.form />" ["lib"] [".ex"] = .ok e ∧
        e.container = "MyApp.User" := by
  have hdirs : ∀ dir ∈ ["lib"], '/' ∉ dir.toList := by decide
  have hcontainer : LineSearch.containerOf "lib/my_app/user.ex" ["lib"] [".ex"] = "MyApp.User" := by
    decide +kernel
  obtain ⟨hspellings, hsame⟩ := containerOfPath_of_spelling hdirs "lib/my_app/user.ex" [".ex"]
  have hspelled : Respelled ["lib"] "lib/my_app/user.ex" "apps\\web//lib/./my_app/user.ex" := by
    have hplain : Respelled ["lib"] "lib/my_app/user.ex" ("lib" ++ "/" ++ "my_app/user.ex") := by
      rw [show "lib" ++ "/" ++ "my_app/user.ex" = "lib/my_app/user.ex" by decide]
      exact .same
    have hdotted := hplain.between "lib" "my_app/user.ex" "/" "/./" (by decide) (by decide)
    have hweb := (hdotted.inside "web" (by decide) (by decide) (by decide)).between "web" _ "/" "//"
      (by decide) (by decide)
    have happs := (hweb.inside "apps" (by decide) (by decide) (by decide)).between "apps" _ "/" "\\"
      (by decide) (by decide)
    rwa [show "apps" ++ "\\" ++ ("web" ++ "//" ++ ("lib" ++ "/./" ++ "my_app/user.ex")) =
      "apps\\web//lib/./my_app/user.ex" by decide] at happs
  refine ⟨hdirs, hspellings _ _ hspelled, ?_⟩
  obtain ⟨e, he, hnamed⟩ := hsame "<.form />" (.inl (by rw [hcontainer]; decide))
  exact ⟨e, he, hnamed.trans hcontainer⟩

end CodeIndex
