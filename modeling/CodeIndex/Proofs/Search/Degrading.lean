import CodeIndex.Proofs.LineSearch.Output
import CodeIndex.Proofs.Search.Answer

/-!
# Searching when the line search goes wrong

Where the index answers, a search answers too, however the program of the line search ends, save one way:
the program ends well and a line of its answer breaks the reading.  The answer begins with the first hit
of the index, and of the program's answer it uses the matches that its lines report.
-/

namespace CodeIndex.Workspace

open LineSearch (IsGarbled Scope firstOfEach firsts)
open Search (Result)

/-! ## The program of a workspace -/

/-- Running the program comes to some outcome, unless it is given a null character. -/
theorem exists_on_runLineSearch {w : Workspace} {query : String}
    (h : ∀ argument ∈ (w.lineScope.arguments w.settings.fallback.executable query).tail,
      '\x00' ∉ argument.toList) :
    ∃ outcome w', (runLineSearch query).on w = (.ok outcome, w') ∧ w'.lineScope = w.lineScope := by
  have hnull : (w.lineScope.arguments w.settings.fallback.executable query).tail.any
      (·.toList.contains '\x00') = false := by
    rw [List.any_eq_false]
    intro argument hargument
    rw [List.contains_iff_mem]
    exact h argument hargument
  unfold runLineSearch
  simp only [on_bind, on_get]
  cases w.executableAt w.settings.fallback.executable with
  | error reason => exact ⟨_, _, rfl, rfl⟩
  | ok p =>
    unfold runAt
    simp only [hnull, Bool.false_eq_true, if_false, on_bind, on_get]
    cases w.programs.find? (·.path == p) with
    | none => exact ⟨_, _, rfl, rfl⟩
    | some program =>
      simp only [on_bind, on_set]
      cases program.behaviour <;> exact ⟨_, _, rfl, rfl⟩

theorem on_liftExcept {α : Type} (r : Except Trouble α) (w : Workspace) :
    (lineMatches.liftExcept r).on w = (r, w) := by
  cases r <;> rfl

theorem exists_found_of_lineMatches {w : Workspace} {query : String}
    (h : ∀ argument ∈ (w.lineScope.arguments w.settings.fallback.executable query).tail,
      '\x00' ∉ argument.toList) :
    ∃ outcome, ((lineMatches query).on w).1 = w.lineScope.found outcome := by
  obtain ⟨outcome, w', hon, hscope⟩ := exists_on_runLineSearch h
  refine ⟨outcome, ?_⟩
  unfold lineMatches
  simp only [on_bind, hon, on_get, hscope, on_liftExcept]

/-! ## The answer -/

/-- The line search is asked: there is one, it is wanted, and the index has too few hits. -/
def Engine.Asks (engine : Engine) (useFallback : Option Bool) (hits : List Store.Hit) : Prop :=
  hits.length < engine.settings.minIndexResults ∧
    useFallback.getD engine.settings.useFallback = true ∧ engine.lines ≠ none

theorem Engine.Asks.isEnough {engine : Engine} {useFallback : Option Bool} {hits : List Store.Hit}
    (h : engine.Asks useFallback hits) :
    Search.isEnough engine.settings hits (useFallback.getD engine.settings.useFallback) = false := by
  rw [← Bool.not_eq_true, isEnough_iff, not_or, Nat.not_le, Bool.not_eq_false]
  exact ⟨h.1, h.2.1⟩

section Answer

variable {engine : Engine} {query : String} {k : Option Int} {useFallback : Option Bool}
  {w w₁ : Workspace} {n : Int} {hits : List Store.Hit} {scope : Scope} {outcome : Program.Outcome}
  (hn : k.getD engine.settings.defaultCount = n) (hpos : 0 < n)
  (hindex : (engine.index query (Search.limitOf n)).on w = (.ok hits, w₁))

include hn hpos hindex

theorem answer_of_not_asks (h : ¬ engine.Asks useFallback hits) :
    ((engine.search query k useFallback).on w).1 =
      .ok (firsts (Search.limitOf n) (hits.map Result.ofHit)) := by
  have henough : Search.isEnough engine.settings hits
      (useFallback.getD engine.settings.useFallback) = true ∨ engine.lines = none := by
    rw [isEnough_iff]
    by_contra hnot
    rw [not_or, not_or, Nat.not_le, Bool.not_eq_false] at hnot
    exact h ⟨hnot.1.1, hnot.1.2, hnot.2⟩
  exact congrArg Prod.fst (on_search_of_enough hn hpos hindex henough)

variable (hasks : engine.Asks useFallback hits)
  (hrun : ∀ lines, engine.lines = some lines → ((lines query).on w₁).1 = scope.found outcome)

include hasks hrun

theorem answer_of_yields {found : List LineSearch.Match} (h : scope.Yields outcome found) :
    ((engine.search query k useFallback).on w).1 =
      .ok (firsts (Search.limitOf n)
        (Search.together engine.layout hits (LineSearch.best (Search.limitOf n) found))) := by
  obtain ⟨lines, hlines⟩ := Option.ne_none_iff_exists'.mp hasks.2.2
  have hfound : ((lines query).on w₁).1 = .ok found :=
    (hrun lines hlines).trans (LineSearch.found_of_yields h)
  obtain ⟨w₂, hon⟩ :=
    on_search_of_found hn hpos hindex hasks.isEnough hlines (Prod.ext hfound rfl)
  exact congrArg Prod.fst hon

theorem answer_of_isFailed (h : LineSearch.IsFailed outcome) :
    ((engine.search query k useFallback).on w).1 =
      .ok (firsts (Search.limitOf n) (hits.map Result.ofHit)) := by
  obtain ⟨lines, hlines⟩ := Option.ne_none_iff_exists'.mp hasks.2.2
  obtain ⟨reason, code, hfailed⟩ := LineSearch.found_of_isFailed h scope
  have hfound := (hrun lines hlines).trans hfailed
  obtain ⟨w₂, hon⟩ :=
    on_search_of_unavailable hn hpos hindex hasks.isEnough hlines (Prod.ext hfound rfl)
  exact congrArg Prod.fst hon

theorem answer_of_isGarbled (h : IsGarbled scope.depth outcome) :
    ∃ m, ((engine.search query k useFallback).on w).1 = .error (.mishap m) := by
  obtain ⟨lines, hlines⟩ := Option.ne_none_iff_exists'.mp hasks.2.2
  obtain ⟨m, hgarbled⟩ := LineSearch.found_of_isGarbled h
  have hfound := (hrun lines hlines).trans hgarbled
  have hon := on_search_of_lines_error hn hpos hindex hasks.isEnough hlines
    (fun _ _ he => by cases he) (Prod.ext hfound rfl)
  exact ⟨m, congrArg Prod.fst hon⟩

omit hasks

/-- A search comes to nothing just if the line search is asked and its answer cannot be read. -/
theorem exists_answer_iff :
    (∃ results, ((engine.search query k useFallback).on w).1 = .ok results) ↔
      ¬ (engine.Asks useFallback hits ∧ IsGarbled scope.depth outcome) := by
  constructor
  · rintro ⟨results, hresults⟩ ⟨hasks, hgarbled⟩
    obtain ⟨m, hm⟩ := answer_of_isGarbled hn hpos hindex hasks hrun hgarbled
    rw [hresults] at hm
    cases hm
  · intro h
    by_cases hasks : engine.Asks useFallback hits
    · obtain ⟨found, hyields⟩ | hfailed | hgarbled := LineSearch.outcome_cases scope outcome
      · exact ⟨_, answer_of_yields hn hpos hindex hasks hrun hyields⟩
      · exact ⟨_, answer_of_isFailed hn hpos hindex hasks hrun hfailed⟩
      · exact absurd ⟨hasks, hgarbled⟩ h
    · exact ⟨_, answer_of_not_asks hn hpos hindex hasks⟩

end Answer

/-! ## The first hit -/

theorem head?_firstOfEach {α β : Type} [BEq β] [LawfulBEq β] (key : α → β) (x : α) (more : List α) :
    (firstOfEach key (x :: more)).head? = some x := by
  obtain ⟨rest, hrest⟩ := LineSearch.prefix_firstOfEach key [x] more
  rw [LineSearch.firstOfEach_of_pairwise (List.pairwise_singleton _ x)] at hrest
  rw [← List.singleton_append, ← hrest]
  rfl

theorem head?_firsts {α : Type} {limit : Int} (h : 0 < limit) (items : List α) :
    (firsts limit items).head? = items.head? := by
  rw [firsts_of_nonneg (Int.le_of_lt h), List.head?_take, if_neg (by omega)]

theorem head?_together (layout : Settings.Index) (hit : Store.Hit) (rest : List Store.Hit)
    (found : List LineSearch.Match) :
    (Search.together layout (hit :: rest) found).head? = some (Result.ofHit hit) := by
  rw [Search.together, LineSearch.distinctBy_eq_firstOfEach, List.map_cons, List.cons_append,
    head?_firstOfEach]

/-- The first hit of the index comes first, whatever the line search does. -/
theorem head?_of_answer {engine : Engine} {query : String} {k : Option Int} {useFallback : Option Bool}
    {w w₁ : Workspace} {n : Int} {hit : Store.Hit} {rest : List Store.Hit} {scope : Scope}
    {outcome : Program.Outcome} (hn : k.getD engine.settings.defaultCount = n) (hpos : 0 < n)
    (hindex : (engine.index query (Search.limitOf n)).on w = (.ok (hit :: rest), w₁))
    (hrun : ∀ lines, engine.lines = some lines → ((lines query).on w₁).1 = scope.found outcome)
    {results : List Result} (h : ((engine.search query k useFallback).on w).1 = .ok results) :
    results.head? = some (Result.ofHit hit) := by
  have hlimit : 0 < Search.limitOf n := Int.lt_min.mpr ⟨hpos, by decide⟩
  have hhits : (firsts (Search.limitOf n) ((hit :: rest).map Result.ofHit)).head? =
      some (Result.ofHit hit) := head?_firsts hlimit _
  by_cases hasks : engine.Asks useFallback (hit :: rest)
  · obtain ⟨found, hyields⟩ | hfailed | hgarbled := LineSearch.outcome_cases scope outcome
    · rw [answer_of_yields hn hpos hindex hasks hrun hyields] at h
      cases h
      rw [head?_firsts hlimit, head?_together]
    · rw [answer_of_isFailed hn hpos hindex hasks hrun hfailed] at h
      cases h
      exact hhits
    · obtain ⟨m, hm⟩ := answer_of_isGarbled hn hpos hindex hasks hrun hgarbled
      rw [hm] at h
      cases h
  · rw [answer_of_not_asks hn hpos hindex hasks] at h
    cases h
    exact hhits

/-- Where the index gives hits, and the line search does as the outcome of a program tells it, a search
answers, unless the line search is asked and a line of the program's answer breaks the reading.  The first
hit comes first.  If the program fails the hits are the answer, and otherwise the matches that the lines
of its answer report, the best of them, come after the hits.  The line search of a workspace does as some
outcome of its program tells it, unless the program were given a null character. -/
theorem degrades_of_search (engine : Engine) (query : String) (k : Option Int)
    (useFallback : Option Bool) (w : Workspace) :
    let count := k.getD engine.settings.defaultCount
    let limit := min count 100
    let answer := ((engine.search query k useFallback).on w).1
    (count ≤ 0 → answer = .ok []) ∧
    (∀ hits w₁ (scope : Scope) (outcome : Program.Outcome), 0 < count →
      (engine.index query limit).on w = (.ok hits, w₁) →
      (∀ lines, engine.lines = some lines → ((lines query).on w₁).1 = scope.found outcome) →
        ((∃ results, answer = .ok results) ↔
          ¬ (engine.Asks useFallback hits ∧ IsGarbled scope.depth outcome)) ∧
        (∀ hit rest results, hits = hit :: rest → answer = .ok results →
          results.head? = some (Result.ofHit hit)) ∧
        (engine.Asks useFallback hits →
          (LineSearch.IsFailed outcome →
            answer = .ok ((hits.map Result.ofHit).take limit.toNat)) ∧
          ∀ found, scope.Yields outcome found →
            answer = .ok ((firstOfEach Result.place (hits.map Result.ofHit ++
              ((LineSearch.byScore found).take limit.toNat).map (Result.ofMatch engine.layout))).take
                limit.toNat))) ∧
    ∀ w : Workspace,
      (∀ argument ∈ (w.lineScope.arguments w.settings.fallback.executable query).tail,
        '\x00' ∉ argument.toList) →
      ∃ outcome, ((lineMatches query).on w).1 = w.lineScope.found outcome := by
  intro count limit answer
  refine ⟨fun h => congrArg Prod.fst (on_search_of_nonpos rfl h), ?_,
    fun w h => exists_found_of_lineMatches h⟩
  intro hits w₁ scope outcome hpos hindex hrun
  have hlimit : 0 ≤ limit := Int.le_min.mpr ⟨Int.le_of_lt hpos, by decide⟩
  refine ⟨exists_answer_iff rfl hpos hindex hrun, ?_, fun hasks => ⟨fun hfailed => ?_, ?_⟩⟩
  · rintro hit rest results rfl h
    exact head?_of_answer rfl hpos hindex hrun h
  · rw [← firsts_of_nonneg hlimit]
    exact answer_of_isFailed rfl hpos hindex hasks hrun hfailed
  · intro found hyields
    rw [← LineSearch.distinctBy_eq_firstOfEach, ← firsts_of_nonneg hlimit, ← firsts_of_nonneg hlimit]
    exact answer_of_yields rfl hpos hindex hasks hrun hyields

def written (output : String) : Bytes :=
  output.toList.map fun c => UInt8.ofNat c.toNat

/-- What is searched, where nothing is set. -/
def plainScope : Scope :=
  { settings := {}, extensions := [".ex"] }

/-- A search whose index has one hit, and whose line search ends in one way. -/
def ending (r : Except Trouble (List LineSearch.Match)) : Engine :=
  { thin with lines := some fun _ => lineMatches.liftExcept r }

theorem on_lines_of_ending {r : Except Trouble (List LineSearch.Match)}
    {lines : String → Action (List LineSearch.Match)} (h : (ending r).lines = some lines)
    (query : String) (w : Workspace) : ((lines query).on w).1 = r := by
  obtain rfl := Option.some.inj h
  exact congrArg Prod.fst (on_liftExcept r w)

/-- A search whose index has one hit, and whose program ends well with some output. -/
def piped (output : String) : Engine :=
  ending (plainScope.found (.exited 0 (written output) []))

/-- A blank line, no JSON, an event of another type, and the event of a match. -/
def mixedOutput : String :=
  "\nlib/b.ex\n\x7b\x22type\x22: \x22begin\x22\x7d\n" ++
    "\x7b\x22type\x22: \x22match\x22, \x22data\x22: \x7b\x22path\x22: \x7b\x22text\x22: " ++
    "\x22./lib/b.ex\x22\x7d, \x22lines\x22: \x7b\x22text\x22: \x22 f(1)\x22\x7d, " ++
    "\x22line_number\x22: 7\x7d\x7d\n"

theorem degrades_of_piped :
    ∃ results,
      (((piped mixedOutput).search "f" (some 5) none).on bare).1 = .ok results ∧
      results.map (fun r => (r.place, r.source)) =
        [(("lib/a.ex", 3), .index), (("lib/b.ex", 7), .fallback)] := by
  have hread : plainScope.matches? (Text.ofBytes (written mixedOutput)) =
      .ok [{ path := "lib/b.ex", line := 7, text := "f(1)", score := 120 }] := by
    decide +kernel
  have hyields : plainScope.Yields (.exited 0 (written mixedOutput) []) _ :=
    .found (LineSearch.matches?_eq_ok_iff.mp hread)
  obtain ⟨-, h, -⟩ := degrades_of_search (piped mixedOutput) "f" (some 5) none bare
  obtain ⟨-, -, hasked⟩ := h _ _ _ _ (by decide) rfl fun _ hlines => on_lines_of_ending hlines _ _
  refine ⟨_, (hasked ⟨by decide, rfl, nofun⟩).2 _ hyields, ?_⟩
  rw [LineSearch.byScore, List.mergeSort_singleton]
  decide

/-- A number in place of an event is no event, and yet the hit of the index is lost. -/
theorem unanswered_of_piped :
    ∃ hits w₁ m,
      ((piped "5\n").index "f" 5).on bare =
        (.ok hits, w₁) ∧
      hits ≠ [] ∧
      (((piped "5\n").search "f" (some 5) none).on bare).1 = .error (.mishap m) := by
  have hline : "5" ∈ Text.lines (Text.ofBytes (written "5\n")) := by decide +kernel
  have hholds : LineSearch.Holds plainScope.depth "5" (.int 5) := ⟨rfl, rfl⟩
  have hgarbled : IsGarbled plainScope.depth (.exited 0 (written "5\n") []) := .mk hline (.noObject hholds nofun)
  have hanswer : ∃ m, (((piped "5\n").search "f" (some 5) none).on bare).1 = .error (.mishap m) :=
    answer_of_isGarbled (n := 5) rfl (by decide) rfl ⟨by decide, rfl, nofun⟩
      (fun _ hlines => on_lines_of_ending hlines _ _) hgarbled
  obtain ⟨m, hm⟩ := hanswer
  exact ⟨_, _, m, rfl, nofun, hm⟩

end CodeIndex.Workspace
