import CodeIndex.Proofs.FileTree.Entry
import Mathlib.Data.List.Basic

/-!
# Putting a file where nothing is

A path is direct if it leads through directories only, as far as there is anything on its way.  It then leads
to where its names say.  A file that is put at the end of a direct path where nothing is brings the missing
directories with it, and every path that led somewhere leads there still.
-/

namespace CodeIndex.Node

variable {root root' : Node} {names place : List String} {name : String} {n : Node}

/-- Whether names lead through directories only, and to no link, as far as there is anything. -/
def isDirect (n : Node) : List String → Bool
  | [] => n.isDir || n.isFile
  | name :: rest => name != ".." && n.isDir && ((n.child? name).getD empty).isDirect rest

theorem isDirect_cons {rest : List String} :
    n.isDirect (name :: rest) = true ↔
      name ≠ ".." ∧ n.isDir = true ∧ ((n.child? name).getD empty).isDirect rest = true := by
  rw [isDirect, Bool.and_eq_true, Bool.and_eq_true, bne_iff_ne, and_assoc]

theorem eq_dir_of_isDir (h : n.isDir = true) : ∃ children, n = .dir children := by
  cases n with
  | dir children => exact ⟨children, rfl⟩
  | file c x => cases h
  | link t => cases h

/-! ## Where a direct path leads -/

/-- A path without links is resolved to itself, if it is there. -/
theorem advance_of_isDirect {follow : List String → List String → Option (List String)}
    {done todo : List String} (hn : root.at? done = some n) (h : n.isDirect todo = true) :
    root.advance follow done todo = (n.at? todo).map fun _ => done ++ todo := by
  induction todo generalizing done n with
  | nil => rw [advance, at?, Option.map_some, List.append_nil]
  | cons name rest ih =>
    obtain ⟨hname, -, hrest⟩ := isDirect_cons.mp h
    have hchild : root.at? (done ++ [name]) = n.child? name := by
      rw [at?_append, hn, Option.bind_some, at?]
      cases n.child? name <;> rfl
    rw [advance_cons _ _ hname, hchild, at?]
    cases hm : n.child? name with
    | none => rfl
    | some m =>
      rw [hm, Option.getD_some] at hrest
      rw [hm] at hchild
      cases m with
      | dir children =>
        change root.advance follow (done ++ [name]) rest = _
        rw [ih hchild hrest, Option.bind_some, List.append_assoc, List.singleton_append]
      | link t =>
        cases rest with
        | nil => cases hrest
        | cons next more => exact absurd (isDirect_cons.mp hrest).2.1 Bool.false_ne_true
      | file c x =>
        cases rest with
        | nil => rfl
        | cons next more => exact absurd (isDirect_cons.mp hrest).2.1 Bool.false_ne_true

/-- A direct path leads where its names say, if anything is there. -/
theorem resolve?_of_isDirect {p : Path} (h : root.isDirect p.names = true) :
    root.resolve? p = (root.at? p.names).map fun _ => p.names :=
  advance_of_isDirect rfl h

/-! ## Putting a file there -/

theorem isDirect_put (c : Content) (x : Bool) (h : root.isDirect place = true) :
    (root.put (.file c x) place).isDirect place = true := by
  induction place generalizing root with
  | nil => rfl
  | cons name rest ih =>
    obtain ⟨hname, -, hrest⟩ := isDirect_cons.mp h
    rw [isDirect_cons]
    refine ⟨hname, rfl, ?_⟩
    rw [child?_put, if_pos rfl, Option.getD_some]
    exact ih hrest

/-- What was in the tree is in it still, and only directories have more in them. -/
theorem at?_put_of_isDirect (entry : Node) (h : root.isDirect place = true)
    (hplace : root.at? place = none) (hn : root.at? names = some n) :
    (root.put entry place).at? names = some n ∨
      ∃ more less, n = .dir less ∧ (root.put entry place).at? names = some (.dir more) := by
  induction place generalizing root names with
  | nil => cases hplace
  | cons name rest ih =>
    obtain ⟨-, hdir, hrest⟩ := isDirect_cons.mp h
    cases names with
    | nil =>
      obtain rfl := Option.some.inj hn
      obtain ⟨children, rfl⟩ := eq_dir_of_isDir hdir
      exact .inr ⟨_, children, rfl, rfl⟩
    | cons k more =>
      rw [at?, child?_put]
      by_cases hk : k = name
      · subst hk
        obtain ⟨m, hm, hmore⟩ := Option.bind_eq_some_iff.mp hn
        rw [at?, hm] at hplace
        rw [hm, Option.getD_some] at hrest
        rw [if_pos rfl, hm]
        exact ih hrest hplace hmore
      · rw [if_neg hk]
        exact .inl hn

theorem extends_put_of_isDirect (entry : Node) (h : root.isDirect place = true)
    (hplace : root.at? place = none) : root.Extends (root.put entry place) := by
  intro names s hs
  obtain ⟨n, hn, rfl⟩ := Option.map_eq_some_iff.mp hs
  obtain hsame | ⟨more, less, rfl, hmore⟩ := at?_put_of_isDirect entry h hplace hn
  · rw [hsame]
    rfl
  · rw [hmore]
    rfl

/-! ## Writing a file there -/

theorem isDirect_dropLast (h : root.isDirect names = true) : root.isDirect names.dropLast = true := by
  induction names generalizing root with
  | nil => exact h
  | cons name rest ih =>
    obtain ⟨hname, hdir, hrest⟩ := isDirect_cons.mp h
    cases rest with
    | nil =>
      rw [List.dropLast_singleton, isDirect, hdir]
      rfl
    | cons next more => exact isDirect_cons.mpr ⟨hname, hdir, ih hrest⟩

/-- What is written at a direct path where nothing is is put where its names say. -/
theorem write_of_isDirect {p : Path} (h : root.isDirect p.names = true)
    (hnone : root.at? p.names = none) (c : Content) :
    root.write p c = root.put (.file c false) p.names := by
  have hplace : root.placeFor p = p.names := by
    rw [placeFor, resolve?_of_isDirect h, hnone, Option.map_none]
    dsimp only
    have hparent := resolve?_of_isDirect (p := p.parent) (isDirect_dropLast h)
    rw [hparent]
    cases root.at? p.parent.names with
    | none => rfl
    | some m =>
      -- the directory is there, and the name that it lacks is put behind it
      have hne : p.names ≠ [] := by
        intro hnil
        rw [hnil] at hnone
        cases hnone
      change p.names.dropLast ++ [p.names.getLast?.getD ""] = p.names
      rw [List.getLast?_eq_getLast_of_ne_nil hne, Option.getD_some, List.dropLast_append_getLast]
  unfold write
  dsimp only
  rw [hplace, hnone]

/-- What is written at a direct path where nothing is is found there. -/
theorem find?_write_self {p : Path} (h : root.isDirect p.names = true)
    (hnone : root.at? p.names = none) (c : Content) :
    (root.write p c).find? p = some (.file c false) := by
  rw [write_of_isDirect h hnone, find?, resolve?_of_isDirect (isDirect_put c false h), at?_put_self]
  exact at?_put_self _ _

/-- Writing where nothing is leaves every path that leads to a file. -/
theorem find?_write_of_find? {p q : Path} (h : root.isDirect p.names = true)
    (hnone : root.at? p.names = none) {d : Content} {y : Bool}
    (hq : root.find? q = some (.file d y)) (c : Content) :
    (root.write p c).find? q = some (.file d y) := by
  obtain ⟨more, hmore, hat⟩ := exists_of_find? hq
  rw [write_of_isDirect h hnone, find?, resolve?_of_extends (extends_put_of_isDirect _ h hnone) hmore]
  obtain hsame | ⟨_, _, hdir, -⟩ := at?_put_of_isDirect _ h hnone hat
  · exact hsame
  · cases hdir

end CodeIndex.Node
