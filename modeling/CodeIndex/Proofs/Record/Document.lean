import CodeIndex.Proofs.Record.Batch
import CodeIndex.Proofs.Text.Lines
import CodeIndex.Proofs.Value.Refusal

/-!
# Documents, line by line

A document has the drafts of its lines, each read alone, and one complaint for each line that is neither
blank nor an entity.  What ends the reading of a whole document is a line that the reader refuses, and
nothing else.
-/

namespace CodeIndex

open Value (openings HasLongRun)

theorem Reading.isRefused_ofValue (v : Value) : (Reading.ofValue v).isRefused = false := by
  unfold Reading.ofValue
  split
  · split <;> rfl
  · rfl

/-- A line is refused for its nesting or for an integer, and for no other fault. -/
theorem Reading.of_isRefused {s : String} {depth : Nat}
    (h : (Reading.ofLine s depth).isRefused = true) : depth < openings s.toList ∨ HasLongRun s.toList := by
  have hstrip : (Text.strip s).toList <:+: s.toList := by
    rw [Text.strip, String.toList_ofList]
    exact Text.trimBoth_infix _ _
  unfold Reading.ofLine at h
  dsimp only at h
  split at h
  · cases h
  · split at h
    · rw [isRefused_ofValue] at h
      cases h
    · rename_i hread
      exact .inl (Value.Explains.of_infix hstrip (Value.explains_of_ofJson? hread))
    · rename_i hread
      exact .inr (Value.Explains.of_infix hstrip (Value.explains_of_ofJson? hread))
    · cases h

namespace Batch

theorem stopped_ofLine (s : String) (line : Option Int) (source : Option String) (depth : Nat) :
    (ofLine s line source depth).stopped = none ↔ (Reading.ofLine s depth).isRefused = false := by
  rw [ofLine, stopped_ofReadings, List.forall_mem_singleton]

/-- What was read first stands before the rest. -/
theorem ofReadings_cons (source : Option String) {r : Option Int × Reading}
    (h : r.2.isRefused = false) (rest : List (Option Int × Reading)) :
    (ofReadings source (r :: rest)).drafts =
        (ofReadings source [r]).drafts ++ (ofReadings source rest).drafts ∧
      (ofReadings source (r :: rest)).malformed =
        (ofReadings source [r]).malformed ++ (ofReadings source rest).malformed := by
  obtain ⟨line, reading⟩ := r
  cases reading with
  | refused fault => cases h
  | _ => exact ⟨rfl, rfl⟩

theorem ofReadings_eq (source : Option String) {readings : List (Option Int × Reading)}
    (h : ∀ r ∈ readings, r.2.isRefused = false) :
    (ofReadings source readings).drafts =
        readings.flatMap (fun r => (ofReadings source [r]).drafts) ∧
      (ofReadings source readings).malformed =
        readings.flatMap fun r => (ofReadings source [r]).malformed := by
  induction readings with
  | nil => exact ⟨rfl, rfl⟩
  | cons r rest ih =>
    rw [List.forall_mem_cons] at h
    obtain ⟨hdrafts, hmalformed⟩ := ofReadings_cons source h.1 rest
    obtain ⟨ihdrafts, ihmalformed⟩ := ih h.2
    rw [hdrafts, hmalformed, ihdrafts, ihmalformed, List.flatMap_cons, List.flatMap_cons]
    exact ⟨rfl, rfl⟩

theorem isBlank_of_ofLine {s : String} {depth : Nat} (h : Reading.ofLine s depth = .blank) : Text.strip s = "" := by
  unfold Reading.ofLine at h
  dsimp only at h
  split at h
  · rename_i hblank
    exact beq_iff_eq.mp hblank
  · split at h
    · unfold Reading.ofValue at h
      split at h
      · split at h <;> cases h
      · cases h
    all_goals cases h

/-- A line is complained about once if it is neither blank nor an entity. -/
theorem malformed_ofLine {s : String} {line : Option Int} {source : Option String} {depth : Nat}
    (h : (ofLine s line source depth).stopped = none) :
    (ofLine s line source depth).malformed.map (fun m => (m.line, m.source)) =
      if Text.strip s != "" && (ofLine s line source depth).drafts.isEmpty then [(line, source)]
      else [] := by
  rw [stopped_ofLine] at h
  unfold ofLine
  by_cases hblank : Text.strip s = ""
  · have hread : Reading.ofLine s depth = .blank := by
      unfold Reading.ofLine
      simp only [hblank, beq_self_eq_true, if_true]
    rw [hread, hblank]
    rfl
  · have hstrip : (Text.strip s != "") = true := by simpa using hblank
    rw [hstrip, Bool.true_and]
    cases hread : Reading.ofLine s depth with
    | blank => exact absurd (isBlank_of_ofLine hread) hblank
    | draft d => rfl
    | malformed reason => rfl
    | refused fault =>
      rw [hread] at h
      cases h

theorem filter_map_eq_flatMap {α β : Type} (p : α → Bool) (f : α → β) (items : List α) :
    (items.filter p).map f = items.flatMap fun x => if p x then [f x] else [] := by
  induction items with
  | nil => rfl
  | cons x rest ih =>
    rw [List.flatMap_cons, ← ih, List.filter_cons]
    split <;> rfl

/-- The batch of one line of a document, read alone. -/
def alone (source : Option String) (depth : Nat) (item : Option Int × String) : Batch :=
  ofLine item.2 item.1 source depth

/-- A document is read to its end exactly if each of its lines alone is, and only a line of very deep
nesting or with a very long number is not.  It has then the drafts of its lines, and one complaint,
with the number of the line, for each line that is neither blank nor an entity. -/
theorem document_of_lines (s : String) (source : Option String) (depth : Nat) :
    ((ofText s source depth).stopped = none ↔
        ∀ item ∈ numbered (Text.lines s), (alone source depth item).stopped = none) ∧
      (∀ item ∈ numbered (Text.lines s), (alone source depth item).stopped ≠ none →
        depth < openings item.2.toList ∨ HasLongRun item.2.toList) ∧
      ((ofText s source depth).stopped = none →
        (ofText s source depth).drafts =
            (numbered (Text.lines s)).flatMap (fun item => (alone source depth item).drafts) ∧
          (ofText s source depth).malformed.map (fun m => (m.line, m.source)) =
            ((numbered (Text.lines s)).filter fun item =>
              Text.strip item.2 != "" && (alone source depth item).drafts.isEmpty).map
              fun item => (item.1, source)) := by
  have hstopped : (ofText s source depth).stopped = none ↔
      ∀ item ∈ numbered (Text.lines s), (alone source depth item).stopped = none := by
    rw [ofText, stopped_ofReadings, List.forall_mem_map]
    exact forall₂_congr fun item _ => (stopped_ofLine item.2 item.1 source depth).symm
  refine ⟨hstopped, fun item _ hne => ?_, fun hread => ?_⟩
  · rw [alone, Ne, stopped_ofLine, Bool.not_eq_false] at hne
    exact Reading.of_isRefused hne
  · have hall := hstopped.mp hread
    have hrefused := hread
    rw [ofText, stopped_ofReadings] at hrefused
    obtain ⟨hdrafts, hmalformed⟩ := ofReadings_eq source hrefused
    constructor
    · rw [ofText, hdrafts, List.flatMap_map]
      rfl
    · rw [ofText, hmalformed, List.flatMap_map, List.map_flatMap, filter_map_eq_flatMap]
      exact List.flatMap_congr fun item hitem => malformed_ofLine (hall item hitem)

def entityLine : String :=
  "\x7b\x22id\x22: \x22x\x22, \x22container\x22: \x22A\x22, \x22name\x22: \x22f\x22, \x22arity\x22: 0, " ++
    "\x22path\x22: \x22a.ex\x22, \x22start_line\x22: 1\x7d"

/-- A document of an entity, a blank line, no JSON, and no map. -/
def mixedDocument : String :=
  entityLine ++ "\n \nnope\r\n[1]"

-- decided for the characters of the text, where `decide` would go through all characters there are
theorem unbroken_of_all {s : String} (h : (s.toList.all fun c => !Text.isLineBreak c) = true) :
    ∀ c ∈ s.toList, Text.isLineBreak c = false :=
  fun c hc => (Bool.not_eq_true' _).mp (List.all_eq_true.mp h c hc)

theorem unbroken_entityLine : ∀ c ∈ entityLine.toList, Text.isLineBreak c = false :=
  unbroken_of_all (by decide +kernel)

theorem exists_ofLine_entityLine : ∃ d, Reading.ofLine entityLine = .draft d := by
  have hid : (Reading.ofLine entityLine).draft?.map Entity.id = some (.whole "x") := by decide +kernel
  cases hread : Reading.ofLine entityLine with
  | draft d => exact ⟨d, rfl⟩
  | _ =>
    rw [hread] at hid
    cases hid

theorem lines_mixedDocument : Text.lines mixedDocument = [entityLine, " ", "nope", "[1]"] := by
  have htext : mixedDocument.toList = entityLine.toList ++ '\n' :: " \nnope\r\n[1]".toList :=
    String.toList_append
  rw [Text.lines, htext, Text.linesFrom_append_lineFeed unbroken_entityLine, List.map_cons,
    String.ofList_toList]
  rfl

theorem document_of_mixed :
    (ofText mixedDocument none).stopped = none ∧
      (ofText mixedDocument none).drafts.length = 1 ∧
      (ofText mixedDocument none).malformed.map (fun m => (m.line, m.source)) =
        [(some 3, none), (some 4, none)] := by
  obtain ⟨hstopped, -, hread⟩ := document_of_lines mixedDocument none Value.depthLimit
  obtain ⟨d, hd⟩ := exists_ofLine_entityLine
  have hitems : numbered (Text.lines mixedDocument) =
      [(some 1, entityLine), (some 2, " "), (some 3, "nope"), (some 4, "[1]")] := by
    rw [lines_mixedDocument]
    rfl
  have hall : ∀ item ∈ numbered (Text.lines mixedDocument), (alone none Value.depthLimit item).stopped = none := by
    rw [hitems]
    simp only [List.forall_mem_cons, alone, stopped_ofLine, hd]
    exact ⟨rfl, rfl, rfl, rfl, List.forall_mem_nil _⟩
  have hdraft : (alone none Value.depthLimit (some 1, entityLine)).drafts = [d] := by
    rw [alone, ofLine, hd]
    rfl
  obtain ⟨hdrafts, hmalformed⟩ := hread (hstopped.mpr hall)
  refine ⟨hstopped.mpr hall, ?_, ?_⟩
  · rw [hdrafts, hitems, List.flatMap_cons, hdraft]
    rfl
  · rw [hmalformed, hitems, List.filter_cons, hdraft, List.isEmpty_cons, Bool.and_false]
    rfl

def brackets : List Char :=
  List.replicate 100000 '['

theorem forall_mem_brackets {P : Char → Prop} (h : P '[') : ∀ c ∈ brackets, P c := by
  intro c hc
  rw [List.eq_of_mem_replicate hc]
  exact h

theorem ofJson?_brackets : Value.ofJson? (String.ofList brackets) = .error .tooDeep := by
  have hskip : Value.skipBlanks brackets = brackets :=
    List.dropWhile_cons_of_neg (l := List.replicate 99999 '[') (by decide)
  have hread : Value.readValue Value.depthLimit (2 * brackets.length + 2) brackets = .error .tooDeep :=
    Value.readValue_replicate (by decide) (by rw [brackets, List.length_replicate]; omega)
  unfold Value.ofJson?
  dsimp only
  rw [String.toList_ofList, hskip, hread]
  rfl

theorem ofLine_brackets : Reading.ofLine (String.ofList brackets) = .refused .tooDeep := by
  have hstrip : Text.strip (String.ofList brackets) = String.ofList brackets := by
    rw [Text.strip, String.toList_ofList, Text.trimBoth_eq_self (forall_mem_brackets rfl)]
  have hne : (String.ofList brackets == "") = false := by
    rw [beq_eq_false_iff_ne, Ne, String.ofList_eq_empty_iff]
    exact List.cons_ne_nil '[' (List.replicate 99999 '[')
  unfold Reading.ofLine
  simp only [hstrip, ofJson?_brackets, hne, Bool.false_eq_true, if_false]

/-- An entity is lost when such a line comes after it. -/
theorem aborted_of_brackets :
    (ofLine entityLine (some 1) none).drafts ≠ [] ∧
      (ofText (entityLine ++ "\n" ++ String.ofList brackets) none).stopped = some .tooDeep := by
  have hlines : Text.lines (entityLine ++ "\n" ++ String.ofList brackets) =
      [entityLine, String.ofList brackets] := by
    have htext : (entityLine ++ "\n" ++ String.ofList brackets).toList =
        entityLine.toList ++ '\n' :: brackets := by
      rw [String.toList_append, String.toList_append, List.append_assoc]
      exact congrArg _ (congrArg (['\n'] ++ ·) String.toList_ofList)
    rw [Text.lines, htext, Text.linesFrom_append_lineFeed unbroken_entityLine,
      Text.linesFrom_of_unbroken (forall_mem_brackets rfl)
        (List.cons_ne_nil '[' (List.replicate 99999 '[')),
      List.map_cons, List.map_singleton, String.ofList_toList]
  obtain ⟨d, hd⟩ := exists_ofLine_entityLine
  constructor
  · rw [ofLine, hd]
    exact List.cons_ne_nil d []
  · rw [ofText, hlines]
    change (ofReadings none [(some 1, Reading.ofLine entityLine),
      (some 2, Reading.ofLine (String.ofList brackets))]).stopped = _
    rw [ofLine_brackets, hd]
    rfl

end Batch

end CodeIndex
