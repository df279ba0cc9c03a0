import CodeIndex.Proofs.Text.Lines
import CodeIndex.Text.Word
import Mathlib.Data.List.TakeWhile

/-!
# What a text holds at its places

Two ways to say what a scan of a text from left to right finds.  One takes every place at which there is
something to be found.  The other goes on behind what it found, so that it misses what begins inside of
it.  Maximal runs of characters are found in the first way.
-/

namespace CodeIndex.Text

variable {α : Type}

/-- What is found in a text at each of its places, from left to right.  `Sees front rest x` tells that `x`
is at the place between `front` and `rest`; the text comes after `before`. -/
def Finds (Sees : List Char → List Char → α → Prop) (before text : List Char) (found : List α) : Prop :=
  ∃ places : List (Nat × α), (places.map Prod.fst).Pairwise (· < ·) ∧ places.map Prod.snd = found ∧
    ∀ i x, (i, x) ∈ places ↔ i ≤ text.length ∧ Sees (before ++ text.take i) (text.drop i) x

/-- What is found in a text from left to right, each the first that begins where the one before it has
ended or later.  `Sees place x rest` tells that `x` is at the front of `place`, and `rest` what follows
it. -/
inductive FindsApart (Sees : List Char → α → List Char → Prop) : List Char → List α → Prop where
  | none {text : List Char} (h : ∀ place, place <:+ text → ∀ x rest, ¬ Sees place x rest) :
      FindsApart Sees text []
  | next {skipped place rest : List Char} {x : α} {found : List α} (h : Sees place x rest)
      (hfirst : ∀ earlier, earlier <:+ skipped ++ place → place.length < earlier.length →
        ∀ x rest, ¬ Sees earlier x rest)
      (hrest : FindsApart Sees rest found) : FindsApart Sees (skipped ++ place) (x :: found)

section

variable {Sees : List Char → List Char → α → Prop} {before : List Char} {found : List α}

theorem Finds.nil (h : ∀ x, ¬ Sees before [] x) : Finds Sees before [] [] := by
  refine ⟨[], List.Pairwise.nil, rfl, fun i x => ?_⟩
  simp [h x]

/-- What is at the first place comes before what is at the others. -/
theorem Finds.cons {c : Char} {rest : List Char} (here : Option α)
    (hhere : ∀ x, here = some x ↔ Sees before (c :: rest) x)
    (h : Finds Sees (before ++ [c]) rest found) :
    Finds Sees before (c :: rest) (here.toList ++ found) := by
  obtain ⟨places, hordered, rfl, hplaces⟩ := h
  refine ⟨here.toList.map (0, ·) ++ places.map fun p => (p.1 + 1, p.2), ?_, ?_, ?_⟩
  · rw [List.map_append, List.map_map, List.map_map, List.pairwise_append]
    refine ⟨?_, ?_, ?_⟩
    · cases here <;> simp
    · have hsucc := hordered.map (· + 1) fun _ _ hlt => Nat.succ_lt_succ hlt
      rwa [List.map_map] at hsucc
    · intro a ha b hb
      obtain ⟨x, -, rfl⟩ := List.mem_map.mp ha
      obtain ⟨p, -, rfl⟩ := List.mem_map.mp hb
      exact Nat.succ_pos p.1
  · simp [Function.comp_def]
  · intro i x
    rw [List.mem_append, List.mem_map, List.mem_map]
    cases i with
    | zero => simp [hhere]
    | succ i => simp [hplaces i x]

theorem Finds.exists_of_mem {text : List Char} (h : Finds Sees before text found) {x : α}
    (hx : x ∈ found) : ∃ front rest, before ++ text = front ++ rest ∧ Sees front rest x := by
  obtain ⟨places, -, rfl, hplaces⟩ := h
  obtain ⟨⟨i, x⟩, hp, rfl⟩ := List.mem_map.mp hx
  refine ⟨_, _, ?_, ((hplaces i x).mp hp).2⟩
  rw [List.append_assoc, List.take_append_drop]

end

section

variable {Sees : List Char → α → List Char → Prop} {text : List Char} {found : List α}

/-- A place at which there is nothing is passed over. -/
theorem FindsApart.skip {c : Char} (hc : ∀ x rest, ¬ Sees (c :: text) x rest)
    (h : FindsApart Sees text found) : FindsApart Sees (c :: text) found := by
  cases h with
  | none h =>
    refine .none fun place hplace => ?_
    rcases List.suffix_cons_iff.mp hplace with rfl | hplace
    · exact hc
    · exact h place hplace
  | @next skipped place rest x found h hfirst hrest =>
    rw [← List.cons_append]
    refine .next h (fun earlier hearlier hlength => ?_) hrest
    rcases List.suffix_cons_iff.mp hearlier with rfl | hearlier
    · exact hc
    · exact hfirst earlier hearlier hlength

theorem FindsApart.here {x : α} {rest : List Char} (hx : Sees text x rest)
    (h : FindsApart Sees rest found) : FindsApart Sees text (x :: found) := by
  rw [← List.nil_append text]
  refine .next hx (fun earlier hearlier hlength => ?_) h
  exact absurd hearlier.length_le (Nat.not_le.mpr hlength)

theorem FindsApart.exists_of_mem (h : FindsApart Sees text found) {x : α} (hx : x ∈ found) :
    ∃ place rest, Sees place x rest := by
  induction h with
  | none => cases hx
  | next h hfirst hrest ih =>
    rcases List.mem_cons.mp hx with rfl | hx
    · exact ⟨_, _, h⟩
    · exact ih hx

end

/-! ## Runs -/

/-- The run at the front of a text goes on as long as it can. -/
theorem takeWhile_eq_iff {p : Char → Bool} {text run : List Char} :
    text.takeWhile p = run ↔ (∀ c ∈ run, p c = true) ∧
      ∃ after, text = run ++ after ∧ ∀ c ∈ after.head?, p c = false := by
  constructor
  · rintro rfl
    refine ⟨fun c hc => List.mem_takeWhile_imp hc, text.dropWhile p,
      List.takeWhile_append_dropWhile.symm, fun c hc => ?_⟩
    have hnot := List.head?_dropWhile_not p text
    rwa [Option.mem_def.mp hc] at hnot
  · rintro ⟨hrun, after, rfl, hafter⟩
    rw [List.takeWhile_append_of_pos hrun]
    cases after with
    | nil => rw [List.takeWhile_nil, List.append_nil]
    | cons c after => rw [List.takeWhile_cons_of_neg (by simp [hafter c rfl]), List.append_nil]

theorem forall_mem_getLast?_iff {p : Char → Bool} {before : List Char} :
    (∀ c ∈ before.getLast?, p c = false) ↔ before.getLast?.any p = false := by
  cases before.getLast? <;> simp

/-- A run of characters of one kind that is part of no longer one. -/
def IsMaximalRun (p : Char → Bool) (before text run : List Char) : Prop :=
  (∀ c ∈ before.getLast?, p c = false) ∧ run ≠ [] ∧ (∀ c ∈ run, p c = true) ∧
    ∃ after, text = run ++ after ∧ ∀ c ∈ after.head?, p c = false

theorem not_isMaximalRun_nil {p : Char → Bool} {before run : List Char} :
    ¬ IsMaximalRun p before [] run := by
  rintro ⟨-, hne, -, after, htext, -⟩
  exact hne (List.append_eq_nil_iff.mp htext.symm).1

theorem isMaximalRun_cons {p : Char → Bool} {before : List Char} {c : Char} {rest run : List Char} :
    IsMaximalRun p before (c :: rest) run ↔
      before.getLast?.any p = false ∧ p c = true ∧ run = c :: rest.takeWhile p := by
  rw [IsMaximalRun, ← takeWhile_eq_iff, forall_mem_getLast?_iff, List.takeWhile_cons]
  apply and_congr_right
  intro _
  cases p c with
  | true =>
    refine ⟨fun h => ⟨rfl, h.2.symm⟩, ?_⟩
    rintro ⟨-, rfl⟩
    exact ⟨List.cons_ne_nil _ _, rfl⟩
  | false => simp [eq_comm]

theorem runsOf_cons_of_pos {p : Char → Bool} {c : Char} (hc : p c = true) (rest : List Char) :
    runsOf p (c :: rest) = (c :: rest.takeWhile p) :: runsOf p (rest.dropWhile p) := by
  induction rest generalizing c with
  | nil => simp [runsOf, hc]
  | cons d rest ih =>
    by_cases hd : p d = true
    · have hrest := ih hd
      rw [List.takeWhile_cons_of_pos hd, List.dropWhile_cons_of_pos hd, runsOf.eq_def]
      simp only [hc, hd, hrest, if_true]
    · rw [List.takeWhile_cons_of_neg hd, List.dropWhile_cons_of_neg hd, runsOf.eq_def]
      cases hruns : runsOf p (d :: rest) <;> simp [hc, hd, hruns]

theorem runsOf_cons_of_neg {p : Char → Bool} {c : Char} (hc : p c = false) (rest : List Char) :
    runsOf p (c :: rest) = runsOf p rest := by
  rw [runsOf.eq_def]
  simp only [hc, Bool.false_eq_true, if_false]

theorem runsOf_eq_nil {p : Char → Bool} {cs : List Char} (h : ∀ c ∈ cs, p c = false) :
    runsOf p cs = [] := by
  induction cs with
  | nil => rfl
  | cons c rest ih =>
    rw [List.forall_mem_cons] at h
    rw [runsOf_cons_of_neg h.1, ih h.2]

theorem runsOf_append {p : Char → Bool} {run after : List Char} (hne : run ≠ [])
    (hrun : ∀ c ∈ run, p c = true) (hafter : ∀ c ∈ after.head?, p c = false) :
    runsOf p (run ++ after) = run :: runsOf p after := by
  obtain ⟨c, cs, rfl⟩ := List.exists_cons_of_ne_nil hne
  rw [List.forall_mem_cons] at hrun
  have htake : (cs ++ after).takeWhile p = cs := takeWhile_eq_iff.mpr ⟨hrun.2, after, rfl, hafter⟩
  rw [List.cons_append, runsOf_cons_of_pos hrun.1, htake, dropWhile_append hrun.2 hafter]

/-- The runs of a text are its maximal runs, from left to right. -/
theorem finds_runsOf (p : Char → Bool) (text : List Char) :
    Finds (IsMaximalRun p) [] text (runsOf p text) := by
  -- inside a run the next one to be found begins after its end
  suffices h : ∀ before : List Char, Finds (IsMaximalRun p) before text
      (if before.getLast?.any p then runsOf p (text.dropWhile p) else runsOf p text) from h []
  induction text with
  | nil =>
    intro before
    rw [List.dropWhile_nil, ite_self]
    exact .nil fun run => not_isMaximalRun_nil
  | cons c rest ih =>
    intro before
    have hrest := ih (before ++ [c])
    rw [List.getLast?_concat, Option.any_some] at hrest
    cases hc : p c with
    | true =>
      rw [hc, if_pos rfl] at hrest
      cases hbefore : before.getLast?.any p with
      | true =>
        rw [if_pos rfl, List.dropWhile_cons_of_pos hc]
        refine .cons none (fun run => ?_) hrest
        simp [isMaximalRun_cons, hbefore]
      | false =>
        rw [if_neg Bool.false_ne_true, runsOf_cons_of_pos hc]
        refine .cons (some _) (fun run => ?_) hrest
        simp [isMaximalRun_cons, hbefore, hc, eq_comm]
    | false =>
      rw [hc, if_neg Bool.false_ne_true] at hrest
      rw [List.dropWhile_cons_of_neg (by simp [hc]), ite_self, runsOf_cons_of_neg hc]
      refine .cons none (fun run => ?_) hrest
      simp [isMaximalRun_cons, hc]

theorem words_of_all {text : String} (hne : text.toList ≠ [])
    (h : ∀ c ∈ text.toList, isWord c = true) : words text = [text] := by
  have hruns : runsOf isWord (text.toList ++ []) = [text.toList] := runsOf_append hne h nofun
  rw [List.append_nil] at hruns
  rw [words, hruns, List.map_singleton, String.ofList_toList]

/-- A word is a run of word characters. -/
theorem isRun_of_mem_words {text word : String} (h : word ∈ words text) :
    word.toList ≠ [] ∧ ∀ c ∈ word.toList, isWord c = true := by
  obtain ⟨run, hrun, rfl⟩ := List.mem_map.mp h
  obtain ⟨front, rest, -, -, hne, hall, -⟩ := (finds_runsOf isWord text.toList).exists_of_mem hrun
  rw [String.toList_ofList]
  exact ⟨hne, hall⟩

end CodeIndex.Text
