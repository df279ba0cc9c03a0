import CodeIndex.Text.Blank
import CodeIndex.Text.Lines
import Mathlib.Data.List.Infix

/-!
# Cutting and trimming

A text without line breaks is one line, up to the line feed that ends it.  What trimming leaves is a part
of the text, and a text between two characters that are not blank loses the blanks around it and no more.
-/

namespace CodeIndex.Text

theorem linesFrom_cons {c : Char} (h : isLineBreak c = false) (current rest : List Char) :
    linesFrom current (c :: rest) = linesFrom (c :: current) rest := by
  have hcr : c ≠ '\r' := by
    rintro rfl
    cases h
  rw [linesFrom, if_neg (by rw [h]; decide)]
  exact fun _ hc _ => hcr hc

theorem linesFrom_append {cs : List Char} (h : ∀ c ∈ cs, isLineBreak c = false)
    (current rest : List Char) :
    linesFrom current (cs ++ rest) = linesFrom (cs.reverse ++ current) rest := by
  induction cs generalizing current with
  | nil => rfl
  | cons c cs ih =>
    rw [List.forall_mem_cons] at h
    rw [List.cons_append, linesFrom_cons h.1, ih h.2, List.reverse_cons, List.append_assoc]
    rfl

/-- A line feed ends the line that was begun. -/
theorem linesFrom_lineFeed (current rest : List Char) :
    linesFrom current ('\n' :: rest) = current.reverse :: linesFrom [] rest := by
  rw [linesFrom]
  · rfl
  · exact fun _ hc => absurd hc (by decide)

theorem linesFrom_append_lineFeed {cs : List Char} (h : ∀ c ∈ cs, isLineBreak c = false)
    (rest : List Char) : linesFrom [] (cs ++ '\n' :: rest) = cs :: linesFrom [] rest := by
  rw [linesFrom_append h, linesFrom_lineFeed, List.append_nil, List.reverse_reverse]

/-- The last line needs no end, if there is anything on it. -/
theorem linesFrom_of_unbroken {cs : List Char} (h : ∀ c ∈ cs, isLineBreak c = false) (hne : cs ≠ []) :
    linesFrom [] cs = [cs] := by
  have hlast := linesFrom_append h [] []
  rw [List.append_nil, List.append_nil] at hlast
  rw [hlast, linesFrom, if_neg (by simpa using hne), List.reverse_reverse]

/-! ## Trimming -/

/-- Only what is to be trimmed is cut off at the front. -/
theorem exists_append_trimBoth (p : Char → Bool) (cs : List Char) :
    ∃ front back, cs = front ++ trimBoth p cs ++ back ∧ ∀ c ∈ front, p c = true := by
  refine ⟨cs.takeWhile p, ((cs.dropWhile p).reverse.takeWhile p).reverse, ?_,
    List.all_eq_true.mp List.all_takeWhile⟩
  rw [trimBoth, List.append_assoc, ← List.reverse_append, List.takeWhile_append_dropWhile,
    List.reverse_reverse, List.takeWhile_append_dropWhile]

theorem trimBoth_infix (p : Char → Bool) (cs : List Char) : trimBoth p cs <:+: cs := by
  obtain ⟨front, back, hcs, -⟩ := exists_append_trimBoth p cs
  exact ⟨front, back, hcs.symm⟩

theorem dropWhile_append {p : Char → Bool} {before cs : List Char} (h : ∀ c ∈ before, p c = true)
    (hcs : ∀ c ∈ cs.head?, p c = false) : (before ++ cs).dropWhile p = cs := by
  induction before with
  | nil =>
    cases cs with
    | nil => rfl
    | cons c cs => rw [List.nil_append, List.dropWhile_cons_of_neg (by simp [hcs c rfl])]
  | cons b before ih =>
    rw [List.forall_mem_cons] at h
    rw [List.cons_append, List.dropWhile_cons_of_pos h.1, ih h.2]

/-- A text without anything to trim stays as it is. -/
theorem trimBoth_eq_self {p : Char → Bool} {cs : List Char} (h : ∀ c ∈ cs, p c = false) :
    trimBoth p cs = cs := by
  have hdrop : ∀ ds : List Char, (∀ c ∈ ds, p c = false) → ds.dropWhile p = ds := by
    intro ds hds
    cases ds with
    | nil => rfl
    | cons c ds => rw [List.dropWhile_cons_of_neg (by simp [hds c List.mem_cons_self])]
  rw [trimBoth, hdrop cs h, hdrop _ fun c hc => h c (List.mem_reverse.mp hc), List.reverse_reverse]

theorem trimBoth_append {p : Char → Bool} {before cs after : List Char}
    (hbefore : ∀ c ∈ before, p c = true) (hafter : ∀ c ∈ after, p c = true) (hne : cs ≠ [])
    (hhead : ∀ c ∈ cs.head?, p c = false) (hlast : ∀ c ∈ cs.getLast?, p c = false) :
    trimBoth p (before ++ cs ++ after) = cs := by
  have hfront : (before ++ (cs ++ after)).dropWhile p = cs ++ after := by
    refine dropWhile_append hbefore fun c hc => hhead c ?_
    rwa [List.head?_append_of_ne_nil _ hne] at hc
  have hback : (after.reverse ++ cs.reverse).dropWhile p = cs.reverse := by
    refine dropWhile_append (fun c hc => hafter c (List.mem_reverse.mp hc)) fun c hc => hlast c ?_
    rwa [List.head?_reverse] at hc
  rw [trimBoth, List.append_assoc, hfront, List.reverse_append, hback, List.reverse_reverse]

end CodeIndex.Text
