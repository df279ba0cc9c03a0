import CodeIndex.Path
import Mathlib.Tactic.Common

/-!
# Paths and their texts

A path is read back from its text.  So the key of a key is the key itself: where a path is keyed twice on
its way to the store, the second time changes nothing.
-/

namespace CodeIndex

/-! ## Pieces -/

namespace Text

theorem piecesBy_eq_splitOnP (p : Char → Bool) (cs : List Char) : piecesBy p cs = cs.splitOnP p := by
  induction cs with
  | nil => rfl
  | cons c rest ih =>
    rw [piecesBy, List.splitOnP_cons_eq_if_modifyHead, ih]
    split
    · rfl
    · cases h : rest.splitOnP p with
      | nil => exact absurd h (List.splitOnP_ne_nil p rest)
      | cons piece pieces => rfl

/-- A text is cut into the texts without separators that it was joined from. -/
theorem pieces_intercalate {names : List String} (hne : names ≠ [])
    (h : ∀ name ∈ names, '/' ∉ name.toList) : pieces '/' ("/".intercalate names) = names := by
  have hsplit : (['/'].intercalate (names.map String.toList)).splitOn '/' = names.map String.toList :=
    List.splitOn_intercalate '/' (by simpa using h) (by simpa using hne)
  have hpieces : pieces '/' ("/".intercalate names) =
      ((['/'].intercalate (names.map String.toList)).splitOn '/').map String.ofList := by
    rw [pieces, piecesBy_eq_splitOnP, String.toList_intercalate]
    rfl
  rw [hpieces, hsplit, List.map_map]
  simp

theorem not_mem_piecesBy {p : Char → Bool} {cs piece : List Char} (h : piece ∈ piecesBy p cs)
    {c : Char} (hc : p c = true) : c ∉ piece := by
  induction cs generalizing piece with
  | nil =>
    obtain rfl := List.mem_singleton.mp h
    exact List.not_mem_nil
  | cons first rest ih =>
    rw [piecesBy] at h
    split at h
    · rcases List.mem_cons.mp h with rfl | h
      · exact List.not_mem_nil
      · exact ih h
    · rename_i hfirst
      have hne : c ≠ first := fun he => hfirst (he ▸ hc)
      split at h
      · obtain rfl := List.mem_singleton.mp h
        simpa using hne
      · rename_i piece' pieces hrest
        rw [hrest] at ih
        rcases List.mem_cons.mp h with rfl | h
        · have := ih List.mem_cons_self
          simp [hne, this]
        · exact ih (List.mem_cons_of_mem _ h)

theorem endsWith_iff {s ending : String} : endsWith s ending = true ↔ ending.toList <:+ s.toList :=
  List.isSuffixOf_iff_suffix

end Text

namespace Path

/-! ## Paths as texts spell them -/

/-- Whether a name can stand between the slashes of a path. -/
def isName (name : String) : Prop :=
  name ≠ "" ∧ name ≠ "." ∧ '/' ∉ name.toList

/-- A path that some text spells. -/
structure IsSpelled (p : Path) : Prop where
  root : p.root = "" ∨ p.root = "/" ∨ p.root = "//"
  names : ∀ name ∈ p.names, isName name

theorem rootOf_cases (cs : List Char) : rootOf cs = "" ∨ rootOf cs = "/" ∨ rootOf cs = "//" := by
  unfold rootOf
  split
  · exact .inr (.inl rfl)
  · exact .inr (.inr rfl)
  · exact .inr (.inl rfl)
  · exact .inl rfl

theorem isSpelled_ofString (s : String) : (ofString s).IsSpelled where
  root := rootOf_cases _
  names name hname := by
    obtain ⟨hpiece, hkept⟩ := List.mem_filter.mp hname
    obtain ⟨piece, hcut, rfl⟩ := List.mem_map.mp hpiece
    rw [Bool.and_eq_true, bne_iff_ne, bne_iff_ne] at hkept
    refine ⟨hkept.1, hkept.2, ?_⟩
    rw [String.toList_ofList]
    exact Text.not_mem_piecesBy hcut (beq_self_eq_true '/')

def namesIn (s : String) : List String :=
  (Text.pieces '/' s).filter fun name => name != "" && name != "."

theorem namesIn_intercalate {names : List String} (h : ∀ name ∈ names, isName name) :
    namesIn ("/".intercalate names) = names := by
  by_cases hne : names = []
  · subst hne
    rfl
  · rw [namesIn, Text.pieces_intercalate hne fun name hname => (h name hname).2.2,
      List.filter_eq_self]
    intro name hname
    simp [(h name hname).1, (h name hname).2.1]

theorem namesIn_slash (s : String) : namesIn ("/" ++ s) = namesIn s := by
  have hpieces : Text.pieces '/' ("/" ++ s) = "" :: Text.pieces '/' s := by
    unfold Text.pieces
    rw [String.toList_append]
    rfl
  rw [namesIn, hpieces, List.filter_cons_of_neg (by decide)]
  rfl

section Rooted

variable {root : String} (hroot : root = "" ∨ root = "/" ∨ root = "//")

include hroot

/-- A root in front of a text spells no name. -/
theorem namesIn_append (s : String) : namesIn (root ++ s) = namesIn s := by
  rcases hroot with rfl | rfl | rfl
  · rw [String.empty_append]
  · exact namesIn_slash s
  · rw [show "//" ++ s = "/" ++ ("/" ++ s) by rw [← String.append_assoc]; rfl, namesIn_slash,
      namesIn_slash]

/-- A root is read back, unless more slashes follow. -/
theorem rootOf_append {cs : List Char} (h : cs.head? ≠ some '/') :
    rootOf (root.toList ++ cs) = root := by
  cases cs with
  | nil => rcases hroot with rfl | rfl | rfl <;> rfl
  | cons c rest =>
    have hc : c ≠ '/' := fun he => h (by rw [he]; rfl)
    rcases hroot with rfl | rfl | rfl <;> simp [rootOf, hc]

end Rooted

theorem head?_intercalate_ne {names : List String} (h : ∀ name ∈ names, isName name) :
    ("/".intercalate names).toList.head? ≠ some '/' := by
  cases names with
  | nil => nofun
  | cons name rest =>
    obtain ⟨hempty, -, hslash⟩ := h name List.mem_cons_self
    have htext : name.toList ≠ [] := by simpa using hempty
    obtain ⟨c, cs, hcs⟩ := List.exists_cons_of_ne_nil htext
    have hc : c ≠ '/' := fun he => hslash (by rw [hcs, he]; exact List.mem_cons_self)
    have hhead : ("/".intercalate (name :: rest)).toList.head? = some c := by
      rw [String.toList_intercalate, List.map_cons, hcs]
      cases rest with
      | nil => rw [List.map_nil, List.intercalate_singleton]; rfl
      | cons next more => rw [List.map_cons, List.intercalate_cons_cons]; rfl
    rw [hhead]
    exact fun he => hc (Option.some.inj he)

/-- A path is read back from its text. -/
theorem ofString_toString {p : Path} (h : p.IsSpelled) : ofString p.toString = p := by
  obtain ⟨root, names⟩ := p
  by_cases hdot : root = "" ∧ names = []
  · obtain ⟨rfl, rfl⟩ := hdot
    rfl
  have htext : toString ⟨root, names⟩ = root ++ "/".intercalate names := by
    rw [toString, if_neg (by simpa using hdot)]
  have hroot : rootOf (root ++ "/".intercalate names).toList = root := by
    rw [String.toList_append]
    exact rootOf_append h.root (head?_intercalate_ne h.names)
  have hnames : namesIn (root ++ "/".intercalate names) = names := by
    rw [namesIn_append h.root, namesIn_intercalate h.names]
  rw [htext]
  exact congrArg₂ Path.mk hroot hnames

/-! ## Keys -/

/-- The path that a key spells. -/
theorem isSpelled_key (root : Path) (s : String) :
    ∃ p : Path, p.IsSpelled ∧ key root s = p.toString ∧
      (p.isAbsolute = true → below? root p = none) := by
  have hs := isSpelled_ofString s
  unfold key
  by_cases habs : (ofString s).isAbsolute = true
  · cases hbelow : below? root (ofString s) with
    | none => exact ⟨ofString s, hs, by simp [habs, hbelow], fun _ => hbelow⟩
    | some q =>
      refine ⟨q, ?_, by simp [habs, hbelow], ?_⟩
      · unfold below? at hbelow
        split at hbelow
        · obtain rfl := Option.some.inj hbelow
          exact ⟨.inl rfl, fun name hname => hs.names name (List.mem_of_mem_drop hname)⟩
        · cases hbelow
      · unfold below? at hbelow
        split at hbelow
        · obtain rfl := Option.some.inj hbelow
          nofun
        · cases hbelow
  · exact ⟨ofString s, hs, by simp [habs], fun h => absurd h habs⟩

/-- The key of a key is the key itself. -/
theorem key_key (root : Path) (s : String) : key root (key root s) = key root s := by
  obtain ⟨p, hp, hkey, hbelow⟩ := isSpelled_key root s
  rw [hkey]
  unfold key
  rw [ofString_toString hp]
  by_cases habs : p.isAbsolute = true
  · simp [habs, hbelow habs]
  · simp [habs]

end Path

end CodeIndex
