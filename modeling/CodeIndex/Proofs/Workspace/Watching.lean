import CodeIndex.Proofs.FileTree.Walking
import CodeIndex.Service.Basic

/-!
# What is watched and what is scanned

A scan and a watcher pick the files of a project by the same extensions and the same excluded directories,
the scan by paths below the project and the watcher by paths from the root of the machine.  What the watcher
reports is scanned, and what is scanned is reported unless the watcher's own list of names leaves it out,
as long as no name outside the project is one that is left out.
-/

namespace CodeIndex

/-! ## Paths from the root of the machine -/

namespace Path

theorem toString_of_ne {p : Path} (h : p.names ≠ []) : p.toString = p.root ++ "/".intercalate p.names := by
  rw [toString, if_neg (by simp [h])]

theorem slashes_of_root {p : Path} (h : p.IsSpelled) : ∀ c ∈ p.root.toList, c = '/' := by
  intro c hc
  rcases h.root with hroot | hroot | hroot
  · simp [hroot] at hc
  · simpa [hroot] using hc
  · simpa [hroot] using hc

/-- The path of a file below a directory. -/
theorem isSpelled_under {base p : Path} (hbase : base.IsSpelled) (hp : ∀ name ∈ p.names, isName name)
    (hroot : p.root = "") : (base.under p).IsSpelled := by
  have hrel : p.isAbsolute = false := by rw [isAbsolute, hroot]; rfl
  rw [under, hrel]
  exact ⟨hbase.root, fun name hname => (List.mem_append.mp hname).elim (hbase.names name) (hp name)⟩

theorem names_under {base p : Path} (hroot : p.root = "") :
    (base.under p).names = base.names ++ p.names := by
  have hrel : p.isAbsolute = false := by rw [isAbsolute, hroot]; rfl
  rw [under, hrel]
  rfl

theorem suffix_intercalate {names : List String} (hne : names ≠ []) (above : List String) :
    '/' :: ("/".intercalate names).toList <:+ '/' :: ("/".intercalate (above ++ names)).toList := by
  induction above with
  | nil => exact List.suffix_rfl
  | cons name rest ih =>
    obtain ⟨next, more, hmore⟩ := List.exists_cons_of_ne_nil (List.append_ne_nil_of_right_ne_nil rest hne)
    rw [hmore] at ih
    refine ih.trans ⟨'/' :: name.toList, ?_⟩
    change _ = '/' :: ("/".intercalate (name :: (rest ++ names))).toList
    rw [hmore]
    simp [String.toList_intercalate]

/-- The text of an absolute path ends with a slash and the text of what is below a directory on it. -/
theorem suffix_under {base p : Path} (hbase : base.IsSpelled) (habs : base.isAbsolute = true)
    (hroot : p.root = "") (hne : p.names ≠ []) :
    '/' :: p.toString.toList <:+ (base.under p).toString.toList := by
  have hnames : (base.under p).names = base.names ++ p.names := names_under hroot
  have hne' : (base.under p).names ≠ [] := by simp [hnames, hne]
  have hslash : ∃ before, base.root.toList = before ++ ['/'] := by
    rcases hbase.root with h | h | h
    · rw [isAbsolute, h] at habs
      cases habs
    · exact ⟨[], by rw [h]; rfl⟩
    · exact ⟨['/'], by rw [h]; rfl⟩
  have hbaseroot : (base.under p).root = base.root := by
    rw [under, show p.isAbsolute = false by rw [isAbsolute, hroot]; rfl]
    rfl
  obtain ⟨before, hbefore⟩ := hslash
  rw [toString_of_ne hne', toString_of_ne hne, hnames, hbaseroot, hroot, String.empty_append,
    String.toList_append, hbefore, List.append_assoc]
  exact (suffix_intercalate hne base.names).trans (List.suffix_append _ _)

end Path

/-! ## Endings -/

namespace Text

/-- An ending that does not reach over the slash before a text is one of the longer text exactly if it is
one of the text. -/
theorem endsWith_of_suffix {s rest ending : String} (h : '/' :: rest.toList <:+ s.toList)
    (hwithin : '/' ∈ ending.toList → ending.toList.length ≤ rest.toList.length) :
    endsWith s ending = endsWith rest ending := by
  have hrest : rest.toList <:+ s.toList := (List.suffix_cons _ _).trans h
  rw [Bool.eq_iff_iff, endsWith_iff, endsWith_iff]
  refine ⟨fun hs => ?_, fun hs => hs.trans hrest⟩
  rcases Nat.lt_or_ge rest.toList.length ending.toList.length with hlt | hle
  · have hslash : '/' :: rest.toList <:+ ending.toList := List.suffix_of_suffix_length_le h hs hlt
    exact absurd (hwithin (hslash.subset List.mem_cons_self)) (Nat.not_le.mpr hlt)
  · exact List.suffix_of_suffix_length_le hs hrest hle

end Text

/-! ## What is reported -/

namespace Watch

/-- The names that the filter sees of a path are its names. -/
theorem pieces_of_path {p : Path} (h : p.IsSpelled) (hne : p.names ≠ []) :
    Text.pieces '/' (String.ofList (p.toString.toList.dropWhile (· == '/'))) = p.names := by
  have hroot : ∀ c ∈ p.root.toList, (c == '/') = true := fun c hc =>
    beq_iff_eq.mpr (Path.slashes_of_root h c hc)
  have hhead : ("/".intercalate p.names).toList.dropWhile (· == '/') =
      ("/".intercalate p.names).toList := by
    have := Path.head?_intercalate_ne h.names
    cases htext : ("/".intercalate p.names).toList with
    | nil => rfl
    | cons c rest =>
      rw [htext] at this
      exact List.dropWhile_cons_of_neg fun hc => this (congrArg some (beq_iff_eq.mp hc))
  rw [Path.toString_of_ne hne, String.toList_append, List.dropWhile_append_of_pos hroot, hhead,
    String.ofList_toList]
  exact Text.pieces_intercalate hne fun name hname => (h.names name hname).2.2

/-- A path is reported if it ends as wanted, none of its names is ignored or excluded, and its last name is
not that of a temporary file. -/
theorem accepts_iff {f : Filter} {p : Path} (h : p.IsSpelled) (hne : p.names ≠ []) :
    f.accepts p.toString = true ↔ f.extensions.any (Text.endsWith p.toString) = true ∧
      (∀ name ∈ p.names, name ∉ ignoredDirs ∧ name ∉ f.excludedDirs) ∧ isTemporary p.name = false := by
  simp only [Filter.accepts, pieces_of_path h hne, Path.name, Bool.and_eq_true, Bool.not_eq_true',
    List.any_eq_false, Bool.or_eq_true, List.contains_iff_mem, not_or, and_assoc]

end Watch

namespace Workspace

open Watch Service

/-- The path of a project's file by the names that lead to it from the project directory. -/
def pathOf (names : List String) : Path :=
  { root := "", names }

variable {w : Workspace} {project : Node} {names : List String}

theorem mem_walk_iff (hproject : w.tree.find? w.root = some project) (htree : project.IsTree)
    (hne : names ≠ []) (hfile : (project.at? names).any Node.isFile = true) :
    (pathOf names).toString ∈ w.walk ↔
      w.settings.index.isIndexed (pathOf names).toString = true ∧
        ∀ name ∈ names.dropLast, name ∉ w.settings.index.excludedDirs := by
  have htext : (pathOf names).toString = "/".intercalate names := by
    rw [Path.toString_of_ne hne]
    exact String.empty_append
  rw [walk, hproject, htext]
  exact Node.intercalate_mem_walk htree hne hfile

section File

variable (hroot : w.root.IsSpelled) (habs : w.root.isAbsolute = true)
  (hproject : w.tree.find? w.root = some project) (htree : project.IsTree) (hne : names ≠ [])
  (hfile : (project.at? names).any Node.isFile = true)

include hroot habs htree hne hfile

/-- A file of a project is reported when it changes if it is indexed, no name from the root of the machine
on is ignored or excluded, and its own is not that of a temporary file. -/
theorem accepts_under_iff (hwithin : ∀ ending ∈ w.settings.index.extensions, '/' ∈ ending.toList →
      ending.toList.length ≤ (pathOf names).toString.toList.length) :
    (watchFilter w.settings.index).accepts (w.root.under (pathOf names)).toString = true ↔
      w.settings.index.isIndexed (pathOf names).toString = true ∧
        (∀ name ∈ w.root.names ++ names, name ∉ ignoredDirs ∧ name ∉ w.settings.index.excludedDirs) ∧
          isTemporary (pathOf names).name = false := by
  have hnamed : ∀ name ∈ names, Path.isName name := by
    obtain ⟨m, hm, -⟩ := (Option.any_eq_true _ _).mp hfile
    exact htree.isName hm
  have hnames : (w.root.under (pathOf names)).names = w.root.names ++ names := Path.names_under rfl
  have hsuffix := Path.suffix_under (p := pathOf names) hroot habs rfl hne
  have hends : w.settings.index.extensions.any (Text.endsWith (w.root.under (pathOf names)).toString) =
      w.settings.index.isIndexed (pathOf names).toString := by
    rw [Settings.Index.isIndexed_eq_any, Bool.eq_iff_iff, List.any_eq_true, List.any_eq_true]
    exact exists_congr fun ending => and_congr_right fun hmem => by
      rw [Text.endsWith_of_suffix hsuffix (hwithin ending hmem)]
  have hname : (w.root.under (pathOf names)).name = (pathOf names).name := by
    rw [Path.name, hnames, List.getLast?_append, List.getLast?_eq_some_getLast hne]
    exact congrArg (·.getD "") (List.getLast?_eq_some_getLast hne).symm
  rw [accepts_iff (Path.isSpelled_under hroot hnamed rfl) (by simp [hnames, hne]), hnames, hname]
  exact and_congr_left fun _ => iff_of_eq (congrArg (· = true) hends)

include hproject

/-- A file of a project that is reported when it changes is scanned.  Outside the directories that are
ignored or excluded, and if it is not itself named like an excluded directory, a file is reported exactly
if it is scanned, no name in the project on the way to it is one that the watcher always ignores, and it
is not named like a temporary file.  A project that itself lies below an ignored or excluded name is left
out because the watcher is wrong there: it looks at every name of a path from the root of the machine, and
reports nothing of a project all of which is scanned. -/
theorem mem_walk_of_accepts (hwithin : ∀ ending ∈ w.settings.index.extensions, '/' ∈ ending.toList →
      ending.toList.length ≤ (pathOf names).toString.toList.length) :
    ((watchFilter w.settings.index).accepts (w.root.under (pathOf names)).toString = true →
      (pathOf names).toString ∈ w.walk) ∧
    ((∀ name ∈ w.root.names, name ∉ ignoredDirs ∧ name ∉ w.settings.index.excludedDirs) →
      (pathOf names).name ∉ w.settings.index.excludedDirs →
      ((watchFilter w.settings.index).accepts (w.root.under (pathOf names)).toString = true ↔
        (pathOf names).toString ∈ w.walk ∧ (∀ name ∈ names, name ∉ ignoredDirs) ∧
          isTemporary (pathOf names).name = false)) := by
  have hsplit : names = names.dropLast ++ [(pathOf names).name] := by
    rw [Path.name, pathOf, List.getLast?_eq_some_getLast hne]
    exact (List.dropLast_concat_getLast hne).symm
  rw [accepts_under_iff hroot habs htree hne hfile hwithin, mem_walk_iff hproject htree hne hfile]
  constructor
  · rintro ⟨hindexed, hnames, -⟩
    exact ⟨hindexed, fun name hname =>
      (hnames name (List.mem_append_right _ (List.dropLast_subset names hname))).2⟩
  · intro houtside hown
    constructor
    · rintro ⟨hindexed, hnames, htemporary⟩
      have hbelow := fun name hname => hnames name (List.mem_append_right _ hname)
      exact ⟨⟨hindexed, fun name hname => (hbelow name (List.dropLast_subset names hname)).2⟩,
        fun name hname => (hbelow name hname).1, htemporary⟩
    · rintro ⟨⟨hindexed, hnames⟩, hignored, htemporary⟩
      refine ⟨hindexed, fun name hname => ?_, htemporary⟩
      rcases List.mem_append.mp hname with hname | hname
      · exact houtside name hname
      · refine ⟨hignored name hname, ?_⟩
        rw [hsplit, List.mem_append, List.mem_singleton] at hname
        rcases hname with hname | rfl
        · exact hnames name hname
        · exact hown

end File

/-- A project with a template, one in a directory of cached files and one of an editor. -/
def cachingProject : Workspace :=
  { tree := .dir [("p", .dir [
      ("lib", .dir [
        ("m", .dir [("x.heex", .ofText "<.a />")]),
        ("__pycache__", .dir [("x.heex", .ofText "<.b />")]),
        (".#x.heex", .ofText "<.c />")])])]
    root := Path.ofString "/p"
    home := Path.ofString "/" }

theorem isTree_cachingProject :
    ∃ project, cachingProject.tree.find? cachingProject.root = some project ∧ project.IsTree := by
  refine ⟨_, rfl, .dir (by decide) ?_ ?_⟩ <;> simp only [List.forall_mem_singleton]
  · exact ⟨by decide, by decide, by decide⟩
  · refine .dir (by decide) ?_ ?_ <;> simp only [List.forall_mem_cons]
    · exact ⟨⟨by decide, by decide, by decide⟩, ⟨by decide, by decide, by decide⟩,
        ⟨by decide, by decide, by decide⟩, nofun⟩
    · refine ⟨.dir (by decide) ?_ ?_, .dir (by decide) ?_ ?_, .file _ _, nofun⟩ <;>
        simp only [List.forall_mem_singleton]
      · exact ⟨by decide, by decide, by decide⟩
      · exact .file _ _
      · exact ⟨by decide, by decide, by decide⟩
      · exact .file _ _

theorem scanned_cachingProject (names : List String) (hne : names ≠ [])
    (hfile : (cachingProject.tree.at? ("p" :: names)).any Node.isFile = true)
    (hindexed : cachingProject.settings.index.isIndexed (pathOf names).toString = true)
    (hnames : ∀ name ∈ names.dropLast, name ∉ cachingProject.settings.index.excludedDirs) :
    (pathOf names).toString ∈ cachingProject.walk := by
  obtain ⟨project, hproject, htree⟩ := isTree_cachingProject
  refine (mem_walk_iff hproject htree hne ?_).mpr ⟨hindexed, hnames⟩
  cases hproject
  exact hfile

theorem reported_cachingProject :
    "lib/m/x.heex" ∈ cachingProject.walk ∧
      (watchFilter cachingProject.settings.index).accepts "/p/lib/m/x.heex" = true := by
  obtain ⟨project, hproject, htree⟩ := isTree_cachingProject
  have hfile : (project.at? ["lib", "m", "x.heex"]).any Node.isFile = true := by
    cases hproject
    decide +kernel
  have hscanned : "lib/m/x.heex" ∈ cachingProject.walk :=
    scanned_cachingProject ["lib", "m", "x.heex"] (List.cons_ne_nil _ _) (by decide +kernel)
      (by decide +kernel) (by decide +kernel)
  have hboth := mem_walk_of_accepts (Path.isSpelled_ofString "/p") (by decide) hproject htree
    (List.cons_ne_nil _ _) hfile (by decide +kernel)
  exact ⟨hscanned, (hboth.2 (by decide +kernel) (by decide +kernel)).mpr
    ⟨hscanned, by decide, by decide +kernel⟩⟩

/-- The watcher ignores directories and names of its own that a scan does not. -/
theorem scanned_not_reported :
    ("lib/__pycache__/x.heex" ∈ cachingProject.walk ∧
      (watchFilter cachingProject.settings.index).accepts "/p/lib/__pycache__/x.heex" = false) ∧
    ("lib/.#x.heex" ∈ cachingProject.walk ∧
      (watchFilter cachingProject.settings.index).accepts "/p/lib/.#x.heex" = false) := by
  refine ⟨⟨?_, by decide +kernel⟩, ?_, by decide +kernel⟩
  · exact scanned_cachingProject ["lib", "__pycache__", "x.heex"] (List.cons_ne_nil _ _)
      (by decide +kernel) (by decide +kernel) (by decide +kernel)
  · exact scanned_cachingProject ["lib", ".#x.heex"] (List.cons_ne_nil _ _)
      (by decide +kernel) (by decide +kernel) (by decide +kernel)

end Workspace

end CodeIndex
