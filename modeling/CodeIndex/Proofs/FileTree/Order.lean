import CodeIndex.Proofs.FileTree.Walking

/-!
# The order of a walk

A walk finds the files that names lead to by way of directories that are not excluded; a link is no
directory.  It finds each of them once: first the files of a directory, then what is in the directories
in it, both by name.
-/

namespace CodeIndex.Node

variable {excluded names p q : List String} {a b name : String} {n : Node}
  {children : List (String × Node)}

/-! ## What is reached -/

/-- The files that names lead to from a directory, those on the way being names of directories that are
not excluded. -/
inductive Reaches (excluded : List String) : Node → List String → Prop
  | file {children : List (String × Node)} {name : String} {content : Content} {executable : Bool}
      (h : (name, .file content executable) ∈ children) : Reaches excluded (.dir children) [name]
  | inside {children inner : List (String × Node)} {name : String} {names : List String}
      (h : (name, .dir inner) ∈ children) (hname : name ∉ excluded)
      (hnames : Reaches excluded (.dir inner) names) : Reaches excluded (.dir children) (name :: names)

theorem reaches_of_mem (h : names ∈ filesBelow excluded n) : Reaches excluded n names := by
  -- By induction on the names: each but the last leads one directory down.
  induction names generalizing n with
  | nil => exact absurd h nil_notMem_filesBelow
  | cons name rest ih =>
    obtain ⟨m, hm, hcases⟩ := cons_mem_filesBelow.mp h
    cases n with
    | dir children =>
      rcases hcases with ⟨hfile, rfl⟩ | ⟨hname, hrest⟩
      · cases m with
        | file content executable => exact .file hm
        | link target => cases hfile
        | dir inner => cases hfile
      · have hreached := ih hrest
        cases m with
        | dir inner => exact .inside hm hname hreached
        | file content executable => cases hreached
        | link target => cases hreached
    | file content executable => cases hm
    | link target => cases hm

theorem mem_of_reaches (h : Reaches excluded n names) : names ∈ filesBelow excluded n := by
  induction h with
  | file h => exact cons_mem_filesBelow.mpr ⟨_, h, .inl ⟨rfl, rfl⟩⟩
  | inside h hname _ ih => exact cons_mem_filesBelow.mpr ⟨_, h, .inr ⟨hname, ih⟩⟩

/-! ## What comes first -/

/-- Which of two files, by the names that lead to them, comes before the other.  The names are the same
down to some directory; there a file of the directory comes before what is further below, and of two files
or two directories the one with the lesser name. -/
inductive Before : List String → List String → Prop
  | files {a b : String} (h : a < b) : Before [a] [b]
  | fileFirst (a b : String) {q : List String} (hq : q ≠ []) : Before [a] (b :: q)
  | dirs {a b : String} {p q : List String} (h : a < b) (hp : p ≠ []) (hq : q ≠ []) :
    Before (a :: p) (b :: q)
  | within (a : String) {p q : List String} (h : Before p q) : Before (a :: p) (a :: q)

theorem not_before_self (p : List String) : ¬ Before p p := by
  induction p with
  | nil => nofun
  | cons a rest ih =>
    intro h
    cases h with
    | files h => exact String.lt_irrefl a h
    | fileFirst _ _ hq => exact hq rfl
    | dirs h => exact String.lt_irrefl a h
    | within _ h => exact ih h

/-! ## Order by name -/

theorem pairwise_byName {α : Type} {items : List (String × α)}
    (h : items.Pairwise fun x y => x.1 ≠ y.1) : (byName items).Pairwise fun x y => x.1 < y.1 := by
  have hperm : (byName items).Perm items := List.mergeSort_perm _ _
  have hdiffer : (byName items).Pairwise fun x y => x.1 ≠ y.1 :=
    (hperm.pairwise_iff fun hne => Ne.symm hne).mpr h
  have hsorted : (byName items).Pairwise fun x y => x.1 ≤ y.1 := by
    have htrans : ∀ x y z : String × α, decide (x.1 ≤ y.1) = true → decide (y.1 ≤ z.1) = true →
        decide (x.1 ≤ z.1) = true := by
      simp only [decide_eq_true_eq]
      exact fun x y z => String.le_trans
    have htotal : ∀ x y : String × α, (decide (x.1 ≤ y.1) || decide (y.1 ≤ x.1)) = true := by
      simp only [Bool.or_eq_true, decide_eq_true_eq]
      exact fun x y => String.le_total x.1 y.1
    exact (List.pairwise_mergeSort htrans htotal items).imp of_decide_eq_true
  refine (hsorted.and hdiffer).imp fun {x y} ⟨hle, hne⟩ => ?_
  exact String.not_le.mp fun hge => hne (String.le_antisymm hle hge)

/-- The entries of a directory have different names for a walk too. -/
theorem pairwise_entriesBelow (h : (children.map Prod.fst).Nodup) :
    (entriesBelow excluded children).Pairwise fun x y => x.1 ≠ y.1 := by
  induction children with
  | nil => exact .nil
  | cons entry rest ih =>
    obtain ⟨hentry, hrest⟩ := List.nodup_cons.mp h
    rw [entriesBelow]
    refine List.pairwise_append.mpr ⟨?_, ih hrest, ?_⟩
    · obtain ⟨name, m⟩ := entry
      rw [entryBelow]
      split
      · exact .nil
      · cases found? excluded m with
        | none => exact .nil
        | some f => exact List.pairwise_singleton _ _
    · intro x hx y hy hsame
      obtain ⟨other, hother, hy⟩ := mem_entriesBelow.mp hy
      have hx : entry.1 = x.1 := (mem_entryBelow.mp hx).1
      have hy : other.1 = y.1 := (mem_entryBelow.mp hy).1
      exact hentry (List.mem_map.mpr ⟨other, hother, hy.trans (hsame.symm.trans hx.symm)⟩)

/-- The files of a directory and of the directories in it come in order, if those of each of them do. -/
theorem pairwise_ordered {found : List (String × Found)} (h : found.Pairwise fun x y => x.1 ≠ y.1)
    (hbelow : ∀ name paths, (name, Found.files paths) ∈ found → paths.Pairwise Before ∧ [] ∉ paths) :
    (ordered found).Pairwise Before := by
  unfold ordered
  extract_lets names below
  -- Files and directories alike have different names, since all that is found has.
  have hnames : names.Pairwise fun x y => x.1 < y.1 := by
    refine pairwise_byName (List.pairwise_filterMap.mpr (h.imp ?_))
    rintro ⟨x, f⟩ ⟨y, g⟩ hne u hu w hw
    cases f <;> cases g <;> cases hu <;> cases hw
    exact hne
  have hdirs : below.Pairwise fun x y => x.1 < y.1 := by
    refine pairwise_byName (List.pairwise_filterMap.mpr (h.imp ?_))
    rintro ⟨x, f⟩ ⟨y, g⟩ hne u hu w hw
    cases f <;> cases g <;> cases hu <;> cases hw
    exact hne
  have hmem : ∀ x ∈ below, x.2.Pairwise Before ∧ [] ∉ x.2 := by
    intro x hx
    obtain ⟨⟨name, f⟩, hf, heq⟩ := List.mem_filterMap.mp (mem_byName.mp hx)
    cases f <;> cases heq
    exact hbelow _ _ hf
  -- Names that lead into a directory are more than its own.
  have hlong : ∀ x ∈ below, ∀ names ∈ x.2, names ≠ [] := by
    rintro x hx names hnames rfl
    exact (hmem x hx).2 hnames
  refine List.pairwise_append.mpr ⟨?_, ?_, ?_⟩
  · exact List.pairwise_map.mpr (hnames.imp fun hlt => .files hlt)
  · refine List.pairwise_flatMap.mpr ⟨fun x hx => ?_, hdirs.imp_of_mem ?_⟩
    · exact List.pairwise_map.mpr ((hmem x hx).1.imp (.within x.1))
    · intro x y hx hy hlt first hfirst second hsecond
      obtain ⟨p, hp, rfl⟩ := List.mem_map.mp hfirst
      obtain ⟨q, hq, rfl⟩ := List.mem_map.mp hsecond
      exact .dirs hlt (hlong x hx p hp) (hlong y hy q hq)
  · intro first hfirst second hsecond
    obtain ⟨x, -, rfl⟩ := List.mem_map.mp hfirst
    obtain ⟨y, hy, hsecond⟩ := List.mem_flatMap.mp hsecond
    obtain ⟨q, hq, rfl⟩ := List.mem_map.mp hsecond
    exact .fileFirst x.1 y.1 (hlong y hy q hq)

/-- The files below a directory of a tree come in order. -/
theorem pairwise_filesBelow (h : n.IsTree) : (filesBelow excluded n).Pairwise Before := by
  induction h with
  | file => exact .nil
  | link => exact .nil
  | dir differ named _ ih =>
    refine pairwise_ordered (pairwise_entriesBelow differ) fun name paths hmem => ?_
    obtain ⟨entry, hentry, hfound⟩ := mem_entriesBelow.mp hmem
    have hpaths : filesBelow excluded entry.2 = paths := by
      rw [filesBelow, (mem_entryBelow.mp hfound).2.1]
    rw [← hpaths]
    exact ⟨ih entry hentry, nil_notMem_filesBelow⟩

/-! ## The walk of a project -/

/-- A walk finds the files that are reached from the project directory by way of directories that are
neither links nor excluded, and that end with an indexed extension; each of them once, the files of a
directory before those in its directories, both by name. -/
theorem walk_in_order (s : Settings.Index) (h : n.IsTree) :
    (∀ path, path ∈ walk s n ↔ ∃ names, path = "/".intercalate names ∧
      Reaches s.excludedDirs n names ∧ ∃ ending ∈ s.extensions, ending.toList <:+ path.toList) ∧
    (walk s n).Nodup ∧
    (walk s n).Pairwise fun p q => Before (Path.ofString p).names (Path.ofString q).names := by
  -- No name has a slash in it, so that the names are read back from the path that joins them.
  have hnamed : ∀ names ∈ filesBelow s.excludedDirs n,
      (Path.ofString ("/".intercalate names)).names = names := by
    intro names hmem
    obtain ⟨-, hfile, -⟩ := (mem_filesBelow h).mp hmem
    obtain ⟨m, hm, -⟩ := (Option.any_eq_true _ _).mp hfile
    exact Path.namesIn_intercalate (h.isName hm)
  have horder : (walk s n).Pairwise fun p q => Before (Path.ofString p).names (Path.ofString q).names := by
    refine List.Pairwise.filter _ (List.pairwise_map.mpr ?_)
    refine (pairwise_filesBelow h).imp_of_mem fun {p q} hp hq hbefore => ?_
    rwa [hnamed p hp, hnamed q hq]
  refine ⟨fun path => ?_, horder.imp fun hbefore hsame => ?_, horder⟩
  · have hindexed : s.isIndexed path = true ↔ ∃ ending ∈ s.extensions, ending.toList <:+ path.toList := by
      simp only [Settings.Index.isIndexed_eq_any, List.any_eq_true, Text.endsWith_iff]
    rw [walk, List.mem_filter, List.mem_map, hindexed]
    constructor
    · rintro ⟨⟨names, hmem, rfl⟩, hends⟩
      exact ⟨names, rfl, reaches_of_mem hmem, hends⟩
    · rintro ⟨names, rfl, hreaches, hends⟩
      exact ⟨⟨names, mem_of_reaches hreaches, rfl⟩, hends⟩
  · exact not_before_self _ (hsame ▸ hbefore)

/-- A project with files at two depths, one of them in an excluded directory, and a link. -/
def linkedProject : Node :=
  .dir [("z.ex", .ofText "z"), ("here", .link "lib"),
    ("lib", .dir [("a.ex", .ofText "a"), ("deps", .dir [("b.ex", .ofText "b")])])]

theorem walk_linkedProject :
    linkedProject.IsTree ∧ ("lib/a.ex" ∈ walk {} linkedProject ∧ "z.ex" ∈ walk {} linkedProject) ∧
      (walk {} linkedProject).Nodup ∧ (walk {} linkedProject).Pairwise fun p q =>
        Before (Path.ofString p).names (Path.ofString q).names := by
  have htree : linkedProject.IsTree := by
    refine .dir (by decide) ?_ ?_ <;> simp only [List.forall_mem_cons]
    · exact ⟨⟨by decide, by decide, by decide⟩, ⟨by decide, by decide, by decide⟩,
        ⟨by decide, by decide, by decide⟩, nofun⟩
    · refine ⟨.file _ _, .link _, .dir (by decide) ?_ ?_, nofun⟩ <;> simp only [List.forall_mem_cons]
      · exact ⟨⟨by decide, by decide, by decide⟩, ⟨by decide, by decide, by decide⟩, nofun⟩
      · refine ⟨.file _ _, .dir (by decide) ?_ ?_, nofun⟩ <;> simp only [List.forall_mem_singleton]
        · exact ⟨by decide, by decide, by decide⟩
        · exact .file _ _
  obtain ⟨hfound, hnodup, horder⟩ := walk_in_order {} htree
  refine ⟨htree, ⟨(hfound _).mpr ⟨["lib", "a.ex"], by decide +kernel, ?_, ".ex", by decide, by decide⟩,
    (hfound _).mpr ⟨["z.ex"], by decide +kernel, ?_, ".ex", by decide, by decide⟩⟩, hnodup, horder⟩
  · exact .inside (.tail _ (.tail _ (.head _))) (by decide) (.file (.head _))
  · exact .file (.head _)

end CodeIndex.Node
