import CodeIndex.FileTree.Basic
import Mathlib.Tactic.Common

/-!
# Putting an entry into a tree

An entry that is put at a place is found there, and what stands elsewhere is found as before.  Where a
path leads depends on no more of the entries on its way than whether they are files, directories or links,
and on the targets of links; a file that takes the place of a file changes nothing about that.
-/

namespace CodeIndex.Node

variable {root root' : Node} {names place : List String} {name : String} {n : Node}

/-! ## Entries of a directory -/

theorem lookup_cons (first : String) (m : Node) (rest : List (String × Node)) (k : String) :
    ((first, m) :: rest).lookup k = if k = first then some m else rest.lookup k := by
  by_cases h : k = first
  · rw [if_pos h, h, List.lookup_cons_self]
  · rw [if_neg h, List.lookup_cons, beq_eq_false_iff_ne.mpr h]

theorem lookup_setChild (children : List (String × Node)) (name : String) (n : Node) (k : String) :
    (setChild children name n).lookup k = if k = name then some n else children.lookup k := by
  induction children with
  | nil => exact lookup_cons name n [] k
  | cons e rest ih =>
    obtain ⟨first, m⟩ := e
    rw [setChild]
    by_cases hfirst : first = name
    · rw [if_pos (beq_iff_eq.mpr hfirst), hfirst, lookup_cons, lookup_cons]
      by_cases h : k = name
      · rw [if_pos h, if_pos h]
      · rw [if_neg h, if_neg h, if_neg h]
    · rw [if_neg (by simpa using hfirst), lookup_cons, lookup_cons, ih]
      by_cases h : k = first
      · rw [if_pos h, if_pos h, if_neg (h ▸ hfirst)]
      · rw [if_neg h, if_neg h]

theorem setChild_of_lookup {children : List (String × Node)} (h : children.lookup name = some n) :
    setChild children name n = children := by
  induction children with
  | nil => cases h
  | cons e rest ih =>
    obtain ⟨first, m⟩ := e
    rw [lookup_cons] at h
    rw [setChild]
    by_cases hfirst : name = first
    · rw [if_pos hfirst] at h
      rw [if_pos (beq_iff_eq.mpr hfirst.symm), Option.some.inj h]
    · rw [if_neg hfirst] at h
      rw [if_neg (by simpa using Ne.symm hfirst), ih h]

theorem child?_put (entry : Node) (rest : List String) (k : String) :
    (root.put entry (name :: rest)).child? k =
      if k = name then some (((root.child? name).getD empty).put entry rest) else root.child? k :=
  lookup_setChild _ _ _ _

/-! ## Entries of a tree -/

theorem at?_append (names more : List String) :
    root.at? (names ++ more) = (root.at? names).bind (·.at? more) := by
  induction names generalizing root with
  | nil => rfl
  | cons name rest ih =>
    rw [List.cons_append, at?, at?, Option.bind_assoc]
    congr 1
    funext m
    exact ih

theorem at?_put_self (entry : Node) (names : List String) :
    (root.put entry names).at? names = some entry := by
  induction names generalizing root with
  | nil => rfl
  | cons name rest ih =>
    rw [at?, child?_put, if_pos rfl]
    exact ih

/-- Putting an entry where it stands changes nothing. -/
theorem put_of_at? (h : root.at? names = some n) : root.put n names = root := by
  induction names generalizing root with
  | nil => exact (Option.some.inj h).symm
  | cons name rest ih =>
    obtain ⟨m, hm, hn⟩ := Option.bind_eq_some_iff.mp h
    cases root with
    | file c x => cases hm
    | link t => cases hm
    | dir children =>
      rw [put, hm, Option.getD_some, ih hn]
      exact congrArg dir (setChild_of_lookup hm)

/-! ## What resolution sees -/

inductive Shape where
  | file
  | link (target : String)
  | dir
  deriving DecidableEq

def shape : Node → Shape
  | .file .. => .file
  | .link target => .link target
  | .dir _ => .dir

/-- The second tree has all that the first has, files as files and links as they are. -/
def Extends (root root' : Node) : Prop :=
  ∀ names s, (root.at? names).map shape = some s → (root'.at? names).map shape = some s

/-- Two trees look the same to the resolution of paths. -/
def Alike (root root' : Node) : Prop :=
  ∀ names, (root'.at? names).map shape = (root.at? names).map shape

theorem advance_cons (follow : List String → List String → Option (List String))
    (done : List String) (hname : name ≠ "..") (rest : List String) :
    root.advance follow done (name :: rest) =
      match root.at? (done ++ [name]) with
      | none => none
      | some (.link target) =>
        follow (if (Path.ofString target).isAbsolute then [] else done)
          ((Path.ofString target).names ++ rest)
      | some (.file ..) => if rest.isEmpty then some (done ++ [name]) else none
      | some (.dir _) => root.advance follow (done ++ [name]) rest :=
  advance.eq_3 root follow done name rest (by simpa using hname)

theorem advance_of_extends (h : root.Extends root')
    {follow follow' : List String → List String → Option (List String)}
    (hfollow : ∀ done todo q, follow done todo = some q → follow' done todo = some q)
    {done todo q : List String} (hq : root.advance follow done todo = some q) :
    root'.advance follow' done todo = some q := by
  induction todo generalizing done with
  | nil => exact hq
  | cons name rest ih =>
    by_cases hname : name = ".."
    · subst hname
      exact ih hq
    · rw [advance_cons _ _ hname] at hq ⊢
      have hshape := h (done ++ [name])
      cases hn : root.at? (done ++ [name]) with
      | none => rw [hn] at hq; cases hq
      | some n =>
        rw [hn] at hq hshape
        obtain ⟨m, hm, hms⟩ := Option.map_eq_some_iff.mp (hshape _ rfl)
        rw [hm]
        cases n <;> cases m <;> cases hms
        · exact hq
        · exact hfollow _ _ _ hq
        · exact ih hq

theorem resolveFrom_of_extends (h : root.Extends root') (links : Nat) {done todo q : List String}
    (hq : root.resolveFrom links done todo = some q) : root'.resolveFrom links done todo = some q := by
  induction links generalizing done todo q with
  | zero => exact advance_of_extends h (fun _ _ _ hnone => by cases hnone) hq
  | succ links ih => exact advance_of_extends h (fun _ _ _ => ih) hq

/-- A path that leads somewhere leads there still when the tree grows. -/
theorem resolve?_of_extends (h : root.Extends root') {p : Path} (hp : root.resolve? p = some names) :
    root'.resolve? p = some names :=
  resolveFrom_of_extends h linkLimit hp

theorem resolve?_of_alike (h : root.Alike root') (p : Path) : root'.resolve? p = root.resolve? p := by
  have hgrows : root.Extends root' := fun names s hs => (h names).trans hs
  have hshrinks : root'.Extends root := fun names s hs => (h names).symm.trans hs
  exact Option.ext fun q => ⟨resolve?_of_extends hshrinks, resolve?_of_extends hgrows⟩

/-! ## A file in place of a file -/

/-- A file that takes the place of a file looks the same to the resolution of paths. -/
theorem alike_put_file {c c' : Content} {x x' : Bool} (h : root.at? place = some (.file c x)) :
    root.Alike (root.put (.file c' x') place) := by
  induction place generalizing root with
  | nil =>
    obtain rfl := Option.some.inj h
    intro names
    cases names <;> rfl
  | cons name rest ih =>
    obtain ⟨m, hm, hfile⟩ := Option.bind_eq_some_iff.mp h
    intro names
    cases names with
    | nil =>
      cases root with
      | file d y => cases hm
      | link t => cases hm
      | dir children => rfl
    | cons k more =>
      rw [at?, at?, child?_put, hm, Option.getD_some]
      by_cases hk : k = name
      · rw [if_pos hk, hk, hm]
        exact ih hfile more
      · rw [if_neg hk]

/-- Other files are as they were. -/
theorem at?_put_of_ne {entry : Node} {c d : Content} {x y : Bool}
    (h : root.at? place = some (.file c x)) (hn : root.at? names = some (.file d y))
    (hne : names ≠ place) : (root.put entry place).at? names = some (.file d y) := by
  induction place generalizing root names with
  | nil =>
    obtain rfl := Option.some.inj h
    cases names with
    | nil => exact absurd rfl hne
    | cons k more => cases hn
  | cons name rest ih =>
    obtain ⟨m, hm, hfile⟩ := Option.bind_eq_some_iff.mp h
    cases names with
    | nil =>
      obtain rfl := Option.some.inj hn
      cases hm
    | cons k more =>
      rw [at?, child?_put]
      by_cases hk : k = name
      · subst hk
        rw [at?, hm] at hn
        rw [if_pos rfl, hm]
        exact ih hfile hn fun he => hne (he ▸ rfl)
      · rw [if_neg hk]
        exact hn

/-! ## Writing over a file -/

theorem exists_of_find? {p : Path} (h : root.find? p = some n) :
    ∃ names, root.resolve? p = some names ∧ root.at? names = some n :=
  Option.bind_eq_some_iff.mp h

theorem exists_of_hasFile {p : Path} (h : root.hasFile p = true) :
    ∃ c x, root.find? p = some (.file c x) := by
  unfold hasFile at h
  cases hfind : root.find? p with
  | none => rw [hfind] at h; cases h
  | some n =>
    rw [hfind] at h
    cases n with
    | file c x => exact ⟨c, x, rfl⟩
    | link target => cases h
    | dir children => cases h

theorem write_of_find? {p : Path} {c : Content} {x : Bool} (h : root.find? p = some (.file c x))
    (c' : Content) : ∃ names, root.resolve? p = some names ∧ root.at? names = some (.file c x) ∧
      root.write p c' = root.put (.file c' x) names := by
  obtain ⟨names, hnames, hat⟩ := exists_of_find? h
  refine ⟨names, hnames, hat, ?_⟩
  unfold write placeFor
  simp only [hnames, hat]

/-- What is written over a file is found there. -/
theorem find?_write {p : Path} {c : Content} {x : Bool} (h : root.find? p = some (.file c x))
    (c' : Content) : (root.write p c').find? p = some (.file c' x) := by
  obtain ⟨names, hnames, hat, hwrite⟩ := write_of_find? h c'
  rw [hwrite, find?, resolve?_of_alike (alike_put_file hat), hnames]
  exact at?_put_self _ _

/-- Writing what a file holds changes nothing. -/
theorem write_self {p : Path} {c : Content} {x : Bool} (h : root.find? p = some (.file c x)) :
    root.write p c = root := by
  obtain ⟨names, -, hat, hwrite⟩ := write_of_find? h c
  rw [hwrite, put_of_at? hat]

/-- Writing over a file leaves every path that leads elsewhere. -/
theorem find?_write_of_ne {p q : Path} {c d : Content} {x y : Bool}
    (h : root.find? p = some (.file c x)) (hq : root.find? q = some (.file d y))
    (hne : root.resolve? q ≠ root.resolve? p) (c' : Content) :
    (root.write p c').find? q = some (.file d y) := by
  obtain ⟨names, hnames, hat, hwrite⟩ := write_of_find? h c'
  obtain ⟨more, hmore, hat'⟩ := exists_of_find? hq
  rw [hwrite, find?, resolve?_of_alike (alike_put_file hat), hmore]
  refine at?_put_of_ne hat hat' fun he => hne ?_
  rw [hmore, hnames, he]

end CodeIndex.Node
