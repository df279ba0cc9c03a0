import CodeIndex.FileTree.Walk
import CodeIndex.Proofs.FileTree.Entry
import CodeIndex.Proofs.Path

/-!
# What a walk reaches

A walk reaches a file by the names on the way to it, each the name of a directory that is not excluded but
the last.  In a tree as a file system has it, where the names in a directory differ and can stand between
slashes, these are all files that are reached without links and without an excluded directory, and each
is told from the others by its path.
-/

namespace CodeIndex

theorem Settings.Index.isIndexed_eq_any (s : Settings.Index) (path : String) :
    s.isIndexed path = s.extensions.any (Text.endsWith path) := by
  rw [isIndexed, isTemplate, isSource, extensions, List.any_append, Bool.or_comm]

namespace Node

variable {excluded names rest : List String} {name : String} {n m : Node}
  {children : List (String × Node)}

/-! ## Trees of a file system -/

/-- A tree as a file system has it: the names in a directory differ, and none is empty, a dot or cut by
a slash. -/
inductive IsTree : Node → Prop
  | file (content : Content) (executable : Bool) : IsTree (.file content executable)
  | link (target : String) : IsTree (.link target)
  | dir {children : List (String × Node)} (differ : (children.map Prod.fst).Nodup)
      (named : ∀ entry ∈ children, Path.isName entry.1) (below : ∀ entry ∈ children, IsTree entry.2) :
      IsTree (.dir children)

theorem lookup_eq_some_iff (h : (children.map Prod.fst).Nodup) :
    children.lookup name = some m ↔ (name, m) ∈ children := by
  induction children with
  | nil => simp
  | cons entry rest ih =>
    obtain ⟨first, n⟩ := entry
    obtain ⟨hfirst, hrest⟩ := List.nodup_cons.mp h
    rw [lookup_cons, List.mem_cons, Prod.mk.injEq]
    by_cases hname : name = first
    · subst hname
      have hnone : (name, m) ∉ rest := fun hmem => hfirst (List.mem_map.mpr ⟨_, hmem, rfl⟩)
      rw [if_pos rfl, Option.some_inj]
      exact ⟨fun he => .inl ⟨rfl, he.symm⟩, fun h => (h.resolve_right hnone).2.symm⟩
    · rw [if_neg hname, ih hrest]
      exact ⟨.inr, fun h => h.resolve_left fun he => hname he.1⟩

/-- An entry of a tree is a tree, and its name can stand in a path. -/
theorem IsTree.child (h : n.IsTree) (hm : n.child? name = some m) : Path.isName name ∧ m.IsTree := by
  cases h with
  | file => cases hm
  | link => cases hm
  | dir differ named below =>
    have hmem := (lookup_eq_some_iff differ).mp hm
    exact ⟨named _ hmem, below _ hmem⟩

/-- The names that lead to an entry of a tree can stand in a path. -/
theorem IsTree.isName (h : n.IsTree) (hm : n.at? names = some m) : ∀ name ∈ names, Path.isName name := by
  induction names generalizing n with
  | nil => nofun
  | cons first rest ih =>
    obtain ⟨k, hk, hat⟩ := Option.bind_eq_some_iff.mp hm
    obtain ⟨hname, htree⟩ := h.child hk
    exact List.forall_mem_cons.mpr ⟨hname, ih htree hat⟩

/-! ## The files below a directory -/

theorem mem_byName {α : Type} {items : List (String × α)} {x : String × α} :
    x ∈ byName items ↔ x ∈ items :=
  List.mem_mergeSort

theorem nil_notMem_ordered (found : List (String × Found)) : [] ∉ ordered found := by
  simp [ordered]

theorem cons_mem_ordered {found : List (String × Found)} :
    name :: rest ∈ ordered found ↔ (name, Found.file) ∈ found ∧ rest = [] ∨
      ∃ paths, (name, Found.files paths) ∈ found ∧ rest ∈ paths := by
  simp only [ordered, List.mem_append, List.mem_map, List.mem_flatMap, mem_byName,
    List.mem_filterMap, Prod.exists]
  refine or_congr ⟨?_, ?_⟩ ⟨?_, ?_⟩
  · rintro ⟨k, u, ⟨k', f, hf, he⟩, heq⟩
    cases f <;> cases he
    cases heq
    exact ⟨hf, rfl⟩
  · rintro ⟨hf, rfl⟩
    exact ⟨name, (), ⟨name, .file, hf, rfl⟩, rfl⟩
  · rintro ⟨k, paths, ⟨k', f, hf, he⟩, more, hmore, heq⟩
    cases f <;> cases he
    cases heq
    exact ⟨paths, hf, hmore⟩
  · rintro ⟨paths, hf, hrest⟩
    exact ⟨name, paths, ⟨name, .files paths, hf, rfl⟩, rest, hrest, rfl⟩

theorem mem_entryBelow {entry : String × Node} {f : Found} :
    (name, f) ∈ entryBelow excluded entry ↔ entry.1 = name ∧ found? excluded entry.2 = some f ∧
      (entry.2.isDir = true → name ∉ excluded) := by
  obtain ⟨k, m⟩ := entry
  rw [entryBelow]
  split
  · rename_i h
    rw [Bool.and_eq_true, List.contains_iff_mem] at h
    constructor
    · nofun
    · rintro ⟨rfl, -, hnot⟩
      exact absurd h.2 (hnot h.1)
  · rename_i h
    rw [Bool.and_eq_true, List.contains_iff_mem, not_and] at h
    rw [Option.mem_toList, Option.map_eq_some_iff]
    constructor
    · rintro ⟨g, hg, heq⟩
      cases heq
      exact ⟨rfl, hg, h⟩
    · rintro ⟨rfl, hf, -⟩
      exact ⟨f, hf, rfl⟩

theorem mem_entriesBelow {found : String × Found} :
    found ∈ entriesBelow excluded children ↔ ∃ entry ∈ children, found ∈ entryBelow excluded entry := by
  induction children with
  | nil => simp [entriesBelow]
  | cons entry rest ih => simp [entriesBelow, ih]

theorem isDir_of_isFile (h : n.isFile = true) : n.isDir = false := by
  cases n with
  | file c x => rfl
  | link t => rfl
  | dir children => cases h

theorem found?_eq_file_iff : found? excluded n = some .file ↔ n.isFile = true := by
  cases n <;> simp [found?, isFile]

theorem exists_found?_iff :
    (∃ paths, found? excluded n = some (.files paths) ∧ names ∈ paths) ↔
      names ∈ filesBelow excluded n := by
  cases n <;> simp [found?, filesBelow]

theorem isDir_of_found? {paths : List (List String)} (h : found? excluded n = some (.files paths)) :
    n.isDir = true := by
  cases n <;> simp [found?, isDir] at h ⊢

theorem nil_notMem_filesBelow : [] ∉ filesBelow excluded n := by
  cases n with
  | file c x => simp [filesBelow, found?]
  | link t => simp [filesBelow, found?]
  | dir children => exact nil_notMem_ordered _

/-- A file is reached as an entry of the directory itself, or by way of a directory that is not
excluded. -/
theorem cons_mem_filesBelow : name :: rest ∈ filesBelow excluded n ↔
    ∃ m, (name, m) ∈ n.children ∧
      (m.isFile = true ∧ rest = [] ∨ name ∉ excluded ∧ rest ∈ filesBelow excluded m) := by
  cases n with
  | file c x => simp [filesBelow, found?, children]
  | link t => simp [filesBelow, found?, children]
  | dir children =>
    change _ ∈ ordered _ ↔ _
    simp only [cons_mem_ordered, mem_entriesBelow, mem_entryBelow]
    constructor
    · rintro (⟨⟨⟨k, m⟩, hm, rfl, hf, -⟩, rfl⟩ | ⟨paths, ⟨⟨k, m⟩, hm, rfl, hf, hnot⟩, hrest⟩)
      · exact ⟨m, hm, .inl ⟨found?_eq_file_iff.mp hf, rfl⟩⟩
      · exact ⟨m, hm, .inr ⟨hnot (isDir_of_found? hf), exists_found?_iff.mp ⟨paths, hf, hrest⟩⟩⟩
    · rintro ⟨m, hm, ⟨hfile, rfl⟩ | ⟨hnot, hrest⟩⟩
      · have hnot : m.isDir = true → name ∉ excluded := by rw [isDir_of_isFile hfile]; nofun
        exact .inl ⟨⟨(name, m), hm, rfl, found?_eq_file_iff.mpr hfile, hnot⟩, rfl⟩
      · obtain ⟨paths, hf, hmem⟩ := exists_found?_iff.mpr hrest
        exact .inr ⟨paths, ⟨(name, m), hm, rfl, hf, fun _ => hnot⟩, hmem⟩

/-- The files below a directory of a tree are all that are reached without links and without an excluded
directory. -/
theorem mem_filesBelow (h : n.IsTree) : names ∈ filesBelow excluded n ↔
    names ≠ [] ∧ (n.at? names).any isFile = true ∧ ∀ name ∈ names.dropLast, name ∉ excluded := by
  induction names generalizing n with
  | nil => exact iff_of_false nil_notMem_filesBelow fun h => h.1 rfl
  | cons name rest ih =>
    have hmem : ∀ m, (name, m) ∈ n.children ↔ n.child? name = some m := by
      intro m
      cases h with
      | file => exact iff_of_false nofun nofun
      | link => exact iff_of_false nofun nofun
      | dir differ => exact (lookup_eq_some_iff differ).symm
    rw [cons_mem_filesBelow, at?]
    simp only [hmem]
    cases hchild : n.child? name with
    | none => simp
    | some m =>
      have htree := (h.child hchild).2
      simp only [Option.some.injEq, exists_eq_left', Option.bind_some, ih htree]
      cases rest with
      | nil => simp [at?]
      | cons next more => simp [and_left_comm]

/-! ## The walk of a project -/

theorem intercalate_injOn {names names' : List String} (hne : names ≠ []) (hne' : names' ≠ [])
    (h : ∀ name ∈ names, Path.isName name) (h' : ∀ name ∈ names', Path.isName name)
    (heq : "/".intercalate names = "/".intercalate names') : names = names' := by
  rw [← Text.pieces_intercalate hne fun name hname => (h name hname).2.2, heq,
    Text.pieces_intercalate hne' fun name hname => (h' name hname).2.2]

/-- What a walk finds of a file: it is found unless it is not indexed or a directory on the way to it is
excluded. -/
theorem intercalate_mem_walk {s : Settings.Index} (h : n.IsTree) (hne : names ≠ [])
    (hfile : (n.at? names).any isFile = true) : "/".intercalate names ∈ walk s n ↔
      s.isIndexed ("/".intercalate names) = true ∧ ∀ name ∈ names.dropLast, name ∉ s.excludedDirs := by
  have named : ∀ {names : List String}, (n.at? names).any isFile = true →
      ∀ name ∈ names, Path.isName name := by
    intro names hfile
    obtain ⟨m, hm, -⟩ := (Option.any_eq_true _ _).mp hfile
    exact h.isName hm
  rw [walk, List.mem_filter, List.mem_map, and_comm]
  refine and_congr_right fun _ => ⟨?_, fun hnot => ⟨names, ?_, rfl⟩⟩
  · rintro ⟨names', hmem, heq⟩
    obtain ⟨hne', hfile', hnot⟩ := (mem_filesBelow h).mp hmem
    obtain rfl := intercalate_injOn hne' hne (named hfile') (named hfile) heq
    exact hnot
  · exact (mem_filesBelow h).mpr ⟨hne, hfile, hnot⟩

end Node

end CodeIndex
