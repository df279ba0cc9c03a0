import CodeIndex.LineSearch.Basic

/-!
# What the answer of a line search reports

The program that searches lines answers with one event per line.  A line that reports a match has it from
three values of its event, and a line that is no event of a match, or lacks one of the values, is passed
over.  There is a third kind: JSON that is no object, or an event whose parts are not what their names
say.  Such a line breaks the reading of the whole answer, and no other does.
-/

namespace CodeIndex.LineSearch

/-! ## Kinds of lines -/

/-- The value of an object at a key, null where there is none. -/
def valueAt (m : Value.Members) (key : String) : Value :=
  (m.get? key).getD .null

/-- What is taken for an object: an object, and null, false, zero or what is empty for an empty one. -/
inductive IsObject : Value → Value.Members → Prop where
  | map (m : Value.Members) : IsObject (.map m) m
  | empty {v : Value} (h : v.isTruthy = false) : IsObject v []

/-- A line has a value, for a reader that goes so deep. -/
def Holds (depth : Nat) (line : String) (v : Value) : Prop :=
  Text.allBlank line = false ∧ Value.ofJson? line depth = .ok v

/-- A line is an event of a match, of which these are the path, the text and the number. -/
inductive IsEvent (depth : Nat) (line : String) : Value → Value → Value → Prop where
  | mk {event data path text : Value.Members} (hline : Holds depth line (.map event))
      (htype : valueAt event "type" = .text "match")
      (hdata : IsObject (valueAt event "data") data)
      (hpath : IsObject (valueAt data "path") path)
      (htext : IsObject (valueAt data "lines") text) :
    IsEvent depth line (valueAt path "text") (valueAt text "text") (valueAt data "line_number")

/-- A line that is passed over: it is blank or no JSON, it is an event of another type, or one of the
three values of its match is missing. -/
inductive Skips (depth : Nat) (line : String) : Prop where
  | blank (h : Text.allBlank line = true)
  | noValue {fault : Value.JsonFault} (hblank : Text.allBlank line = false)
      (h : Value.ofJson? line depth = .error fault) (hdeep : fault ≠ .tooDeep)
      (hlong : fault ≠ .numberTooLong)
  | otherType {event : Value.Members} (hline : Holds depth line (.map event))
      (htype : valueAt event "type" ≠ .text "match")
  | missing {path text number : Value} (h : IsEvent depth line path text number)
      (hnull : path = .null ∨ text = .null ∨ number = .null)

def Scope.matchFrom (scope : Scope) (path text : String) (number : Int) : Match :=
  let path := Text.withoutStart path "./"
  let text := withoutLineEnd text
  { path, line := number, text := Text.strip text
    score := score path text scope.primaryDirs scope.settings.testDirs
      scope.settings.longLineThreshold }

/-- A line that reports a match. -/
inductive Scope.Reports (scope : Scope) (line : String) : Match → Prop where
  | mk {path text number : Value} {p t : String} {n : Int} (h : IsEvent scope.depth line path text number)
      (hpath : textOf path = .ok p) (htext : textOf text = .ok t)
      (hnumber : lineNumber number = .ok n) : Reports scope line (scope.matchFrom p t n)

/-- A line that breaks the reading: it is nested too deeply or has too long a number, it is JSON but no
object, or it is a match of which a part is no object, or a value no text or no number. -/
inductive Breaks (depth : Nat) (line : String) : Prop where
  | unread {fault : Value.JsonFault} (hblank : Text.allBlank line = false)
      (h : Value.ofJson? line depth = .error fault) (hfault : fault = .tooDeep ∨ fault = .numberTooLong)
  | noObject {v : Value} (hline : Holds depth line v) (hv : ∀ m, v ≠ .map m)
  | noPart {event : Value.Members} (hline : Holds depth line (.map event))
      (htype : valueAt event "type" = .text "match")
      (hpart : ∀ path text number, ¬ IsEvent depth line path text number)
  | unfit {path text number : Value} (h : IsEvent depth line path text number) (hpath : path ≠ .null)
      (htext : text ≠ .null) (hnumber : number ≠ .null)
      (hunfit : ∃ m, textOf path = .error m ∨ textOf text = .error m ∨ lineNumber number = .error m)

/-! ## Members of objects -/

theorem memberOf_map (m : Value.Members) (key : String) :
    memberOf (.map m) key = .ok (valueAt m key) := rfl

theorem memberOf_of_ne {v : Value} (h : ∀ m, v ≠ .map m) (key : String) :
    memberOf v key = .error (.notAnObject v.typeName) := by
  cases v with
  | map m => exact absurd rfl (h m)
  | _ => rfl

theorem objectMember_of_ne {v : Value} (h : ∀ m, v ≠ .map m) (key : String) :
    objectMember v key = .error (.notAnObject v.typeName) := by
  rw [objectMember, memberOf_of_ne h]
  rfl

theorem objectMember_of_isObject {m o : Value.Members} {key : String}
    (h : IsObject (valueAt m key) o) : objectMember (.map m) key = .ok (.map o) := by
  rw [objectMember, memberOf_map]
  generalize valueAt m key = v at h
  cases h with
  | map o => cases o <;> rfl
  | empty h =>
    change Except.ok (if v.isTruthy then v else .map []) = _
    rw [h]
    rfl

/-- What is not taken for an object is handed on as it is, and has no members. -/
theorem objectMember_cases (m : Value.Members) (key : String) :
    (∃ o, IsObject (valueAt m key) o) ∨
      ∃ v, objectMember (.map m) key = .ok v ∧ ∀ o, v ≠ .map o := by
  rw [objectMember, memberOf_map]
  generalize valueAt m key = v
  cases htruthy : v.isTruthy with
  | false => exact .inl ⟨[], .empty htruthy⟩
  | true =>
    by_cases hmap : ∃ o, v = .map o
    · obtain ⟨o, rfl⟩ := hmap
      exact .inl ⟨o, .map o⟩
    · refine .inr ⟨v, ?_, fun o ho => hmap ⟨o, ho⟩⟩
      change Except.ok (if v.isTruthy then v else .map []) = _
      rw [htruthy]
      rfl

theorem innerMember_cases (m : Value.Members) (key inner : String) :
    (∃ o, IsObject (valueAt m key) o) ∨
      ∃ e, (objectMember (.map m) key >>= (memberOf · inner)) = .error e := by
  obtain hobject | ⟨v, hv, hne⟩ := objectMember_cases m key
  · exact .inl hobject
  · refine .inr ⟨.notAnObject v.typeName, ?_⟩
    rw [hv]
    exact memberOf_of_ne hne inner

/-! ## What each kind comes to -/

section

variable {scope : Scope} {line : String} {path text number : Value}

theorem eventOf?_of_holds {v : Value} (h : Holds scope.depth line v) :
    scope.eventOf? line = do
      match ← memberOf v "type" with
      | .text "match" => scope.matchOf? (← objectMember v "data")
      | _ => return none := by
  unfold Scope.eventOf?
  rw [h.1, h.2]
  rfl

theorem eventOf?_of_type {event : Value.Members} (h : Holds scope.depth line (.map event))
    (htype : valueAt event "type" = .text "match") :
    scope.eventOf? line = objectMember (.map event) "data" >>= scope.matchOf? := by
  rw [eventOf?_of_holds h, memberOf_map, htype]
  rfl

def Scope.matchOfValues? (scope : Scope) (path text number : Value) : Except Mishap (Option Match) :=
  match path, text, number with
  | .null, _, _ => .ok none
  | _, .null, _ => .ok none
  | _, _, .null => .ok none
  | _, _, _ => do
    let path ← textOf path
    let text ← textOf text
    let number ← lineNumber number
    return some (scope.matchFrom path text number)

theorem matchOf?_of_isObject {data path text : Value.Members}
    (hpath : IsObject (valueAt data "path") path) (htext : IsObject (valueAt data "lines") text) :
    scope.matchOf? (.map data) =
      scope.matchOfValues? (valueAt path "text") (valueAt text "text")
        (valueAt data "line_number") := by
  unfold Scope.matchOf?
  rw [objectMember_of_isObject hpath, objectMember_of_isObject htext]
  rfl

theorem eventOf?_of_isEvent (h : IsEvent scope.depth line path text number) :
    scope.eventOf? line = scope.matchOfValues? path text number := by
  cases h with
  | mk hline htype hdata hpath htext =>
    rw [eventOf?_of_type hline htype, objectMember_of_isObject hdata]
    exact matchOf?_of_isObject hpath htext

theorem matchOfValues?_of_ne (hpath : path ≠ .null) (htext : text ≠ .null) (hnumber : number ≠ .null) :
    scope.matchOfValues? path text number = do
      let path ← textOf path
      let text ← textOf text
      let number ← lineNumber number
      return some (scope.matchFrom path text number) := by
  unfold Scope.matchOfValues?
  split
  · exact absurd rfl hpath
  · exact absurd rfl htext
  · exact absurd rfl hnumber
  · rfl

theorem eventOf?_of_skips (h : Skips scope.depth line) : scope.eventOf? line = .ok none := by
  cases h with
  | blank h => rw [Scope.eventOf?, if_pos h]
  | @noValue fault hblank h hdeep hlong =>
    unfold Scope.eventOf?
    rw [hblank, h]
    cases fault <;> first | rfl | contradiction
  | otherType hline htype =>
    rw [eventOf?_of_holds hline, memberOf_map]
    change (match valueAt _ "type" with
      | .text "match" => _
      | _ => _) = _
    split
    · rename_i heq
      exact absurd heq htype
    · rfl
  | @missing path text number h hnull =>
    rw [eventOf?_of_isEvent h]
    rcases hnull with rfl | rfl | rfl
    · rfl
    · cases path <;> rfl
    · cases path <;> cases text <;> rfl

theorem eventOf?_of_reports {m : Match} (h : scope.Reports line m) :
    scope.eventOf? line = .ok (some m) := by
  cases h with
  | mk h hpath htext hnumber =>
    rw [eventOf?_of_isEvent h, matchOfValues?_of_ne (by rintro rfl; cases hpath)
      (by rintro rfl; cases htext) (by rintro rfl; cases hnumber), hpath, htext, hnumber]
    rfl

/-- A line that breaks the reading ends it with an error, whichever of its parts is wrong. -/
theorem eventOf?_of_breaks (h : Breaks scope.depth line) :
    ∃ m, scope.eventOf? line = .error m := by
  cases h with
  | unread hblank h hfault =>
    unfold Scope.eventOf?
    rw [hblank, h]
    rcases hfault with rfl | rfl <;> exact ⟨_, rfl⟩
  | noObject hline hv =>
    rw [eventOf?_of_holds hline, memberOf_of_ne hv]
    exact ⟨_, rfl⟩
  | @noPart event hline htype hpart =>
    rw [eventOf?_of_type hline htype]
    obtain ⟨data, hdata⟩ | ⟨v, hv, hne⟩ := objectMember_cases event "data"
    · rw [objectMember_of_isObject hdata]
      change ∃ m, scope.matchOf? (.map data) = .error m
      unfold Scope.matchOf?
      obtain ⟨path, hpath⟩ | ⟨m, hm⟩ := innerMember_cases data "path" "text"
      · obtain ⟨text, htext⟩ | ⟨m, hm⟩ := innerMember_cases data "lines" "text"
        · exact absurd (.mk hline htype hdata hpath htext) (hpart _ _ _)
        · rw [objectMember_of_isObject hpath, hm]
          exact ⟨m, rfl⟩
      · rw [hm]
        exact ⟨m, rfl⟩
    · rw [hv]
      refine ⟨.notAnObject v.typeName, ?_⟩
      change scope.matchOf? v = _
      unfold Scope.matchOf?
      rw [objectMember_of_ne hne]
      rfl
  | @unfit path text number h hpath htext hnumber hunfit =>
    rw [eventOf?_of_isEvent h, matchOfValues?_of_ne hpath htext hnumber]
    obtain ⟨m, hm | hm | hm⟩ := hunfit
    · rw [hm]
      exact ⟨m, rfl⟩
    · rw [hm]
      cases textOf path <;> exact ⟨_, rfl⟩
    · rw [hm]
      cases textOf path <;> cases textOf text <;> exact ⟨_, rfl⟩

theorem Breaks.eventOf?_ne_ok (h : Breaks scope.depth line) {read : Option Match} :
    scope.eventOf? line ≠ .ok read := by
  obtain ⟨m, hm⟩ := eventOf?_of_breaks h
  rw [hm]
  nofun

theorem kind_of_isEvent (h : IsEvent scope.depth line path text number) :
    Skips scope.depth line ∨ (∃ m, scope.Reports line m) ∨ Breaks scope.depth line := by
  by_cases hnull : path = .null ∨ text = .null ∨ number = .null
  · exact .inl (.missing h hnull)
  rw [not_or, not_or] at hnull
  obtain ⟨hpath, htext, hnumber⟩ := hnull
  have hunfit := Breaks.unfit h hpath htext hnumber
  cases hp : textOf path with
  | error m => exact .inr (.inr (hunfit ⟨m, .inl hp⟩))
  | ok p =>
    cases ht : textOf text with
    | error m => exact .inr (.inr (hunfit ⟨m, .inr (.inl ht)⟩))
    | ok t =>
      cases hn : lineNumber number with
      | error m => exact .inr (.inr (hunfit ⟨m, .inr (.inr hn)⟩))
      | ok n => exact .inr (.inl ⟨_, .mk h hp ht hn⟩)

/-- There are no other lines. -/
theorem kind_cases (scope : Scope) (line : String) :
    Skips scope.depth line ∨ (∃ m, scope.Reports line m) ∨ Breaks scope.depth line := by
  cases hblank : Text.allBlank line with
  | true => exact .inl (.blank hblank)
  | false =>
    cases hread : Value.ofJson? line scope.depth with
    | error fault =>
      by_cases hfault : fault = .tooDeep ∨ fault = .numberTooLong
      · exact .inr (.inr (.unread hblank hread hfault))
      · rw [not_or] at hfault
        exact .inl (.noValue hblank hread hfault.1 hfault.2)
    | ok v =>
      have hline : Holds scope.depth line v := ⟨hblank, hread⟩
      by_cases hmap : ∃ event, v = .map event
      · obtain ⟨event, rfl⟩ := hmap
        by_cases htype : valueAt event "type" = .text "match"
        · by_cases hevent : ∃ path text number, IsEvent scope.depth line path text number
          · obtain ⟨path, text, number, h⟩ := hevent
            exact kind_of_isEvent h
          · refine .inr (.inr (.noPart hline htype fun path text number h => ?_))
            exact hevent ⟨path, text, number, h⟩
        · exact .inl (.otherType hline htype)
      · exact .inr (.inr (.noObject hline fun m hm => hmap ⟨m, hm⟩))

end

/-! ## Whole answers -/

/-- Lines report matches, in order, if none of them breaks the reading. -/
inductive Scope.Reads (scope : Scope) : List String → List Match → Prop where
  | nil : Reads scope [] []
  | skip {line : String} {rest : List String} {found : List Match} (h : Skips scope.depth line)
      (hrest : Reads scope rest found) : Reads scope (line :: rest) found
  | report {line : String} {m : Match} {rest : List String} {found : List Match}
      (h : scope.Reports line m) (hrest : Reads scope rest found) :
    Reads scope (line :: rest) (m :: found)

section

variable {scope : Scope} {lines : List String} {found : List Match}

theorem mapM_eventOf?_cons (line : String) (rest : List String) :
    ((line :: rest).mapM scope.eventOf?).map (fun read => read.filterMap id) = do
      let first ← scope.eventOf? line
      let found ← (rest.mapM scope.eventOf?).map fun read => read.filterMap id
      return first.toList ++ found := by
  rw [List.mapM_cons]
  cases scope.eventOf? line with
  | error m => rfl
  | ok first =>
    cases rest.mapM scope.eventOf? with
    | error m => rfl
    | ok read => cases first <;> rfl

theorem Scope.Reads.mapM_eventOf? (h : scope.Reads lines found) :
    (lines.mapM scope.eventOf?).map (fun read => read.filterMap id) = .ok found := by
  induction h with
  | nil => rfl
  | skip h _ ih =>
    rw [mapM_eventOf?_cons, eventOf?_of_skips h, ih]
    rfl
  | report h _ ih =>
    rw [mapM_eventOf?_cons, eventOf?_of_reports h, ih]
    rfl

theorem Scope.Reads.not_breaks (h : scope.Reads lines found) : ∀ line ∈ lines, ¬ Breaks scope.depth line := by
  induction h with
  | nil => nofun
  | skip h _ ih =>
    refine List.forall_mem_cons.mpr ⟨fun hbreaks => ?_, ih⟩
    exact hbreaks.eventOf?_ne_ok (eventOf?_of_skips h)
  | report h _ ih =>
    refine List.forall_mem_cons.mpr ⟨fun hbreaks => ?_, ih⟩
    exact hbreaks.eventOf?_ne_ok (eventOf?_of_reports h)

/-- An output is read to its end, or one of its lines breaks the reading. -/
theorem reads_or_breaks (scope : Scope) (lines : List String) :
    (∃ found, scope.Reads lines found) ∨ ((∃ line ∈ lines, Breaks scope.depth line) ∧
      ∃ m, (lines.mapM scope.eventOf?).map (fun read => read.filterMap id) = .error m) := by
  induction lines with
  | nil => exact .inl ⟨[], .nil⟩
  | cons line rest ih =>
    -- a line that breaks the reading does so wherever it stands
    have hlater : (∃ l ∈ rest, Breaks scope.depth l) → ∃ l ∈ line :: rest, Breaks scope.depth l :=
      fun ⟨l, hl, hbreaks⟩ => ⟨l, List.mem_cons_of_mem line hl, hbreaks⟩
    obtain hskips | ⟨m, hreports⟩ | hbreaks := kind_cases scope line
    · obtain ⟨found, hfound⟩ | ⟨hrest, m, hm⟩ := ih
      · exact .inl ⟨found, .skip hskips hfound⟩
      · refine .inr ⟨hlater hrest, m, ?_⟩
        rw [mapM_eventOf?_cons, eventOf?_of_skips hskips, hm]
        rfl
    · obtain ⟨found, hfound⟩ | ⟨hrest, m', hm'⟩ := ih
      · exact .inl ⟨m :: found, .report hreports hfound⟩
      · refine .inr ⟨hlater hrest, m', ?_⟩
        rw [mapM_eventOf?_cons, eventOf?_of_reports hreports, hm']
        rfl
    · obtain ⟨m, hm⟩ := eventOf?_of_breaks hbreaks
      refine .inr ⟨⟨line, List.mem_cons_self, hbreaks⟩, m, ?_⟩
      rw [mapM_eventOf?_cons, hm]
      rfl

/-- An answer is read just if its lines report matches, and these are then what is read. -/
theorem matches?_eq_ok_iff {output : String} :
    scope.matches? output = .ok found ↔ scope.Reads (Text.lines output) found := by
  refine ⟨fun h => ?_, Scope.Reads.mapM_eventOf?⟩
  obtain ⟨found', hreads⟩ | ⟨-, m, hm⟩ := reads_or_breaks scope (Text.lines output)
  · have heq := h.symm.trans hreads.mapM_eventOf?
    injection heq with heq
    rwa [heq]
  · have heq := h.symm.trans hm
    cases heq

theorem exists_matches?_eq_error_iff (scope : Scope) {output : String} :
    (∃ m, scope.matches? output = .error m) ↔ ∃ line ∈ Text.lines output, Breaks scope.depth line := by
  obtain ⟨found, hreads⟩ | ⟨hbreaks, hm⟩ := reads_or_breaks scope (Text.lines output)
  · constructor
    · rintro ⟨m, hm⟩
      rw [matches?_eq_ok_iff.mpr hreads] at hm
      cases hm
    · rintro ⟨line, hline, hbreaks⟩
      exact absurd hbreaks (hreads.not_breaks line hline)
  · exact ⟨fun _ => hbreaks, fun _ => hm⟩

end

/-! ## Runs of the program -/

/-- A run of the program that brings matches, or none. -/
inductive Scope.Yields (scope : Scope) : Program.Outcome → List Match → Prop where
  | found {output errors : Bytes} {found : List Match}
      (h : scope.Reads (Text.lines (Text.ofBytes output)) found) :
    Yields scope (.exited 0 output errors) found
  | nothing {output errors : Bytes} : Yields scope (.exited 1 output errors) []

/-- A run of the program that brings no answer: there is no program, it does not start, it takes too long,
or it ends with a code of its own. -/
inductive IsFailed : Program.Outcome → Prop where
  | notFound : IsFailed .notFound
  | notStarted {reason : String} : IsFailed (.notStarted reason)
  | timedOut : IsFailed .timedOut
  | exited {code : Int} {output errors : Bytes} (hzero : code ≠ 0) (hone : code ≠ 1) :
    IsFailed (.exited code output errors)

/-- A run of the program that brings an answer which cannot be read. -/
inductive IsGarbled (depth : Nat) : Program.Outcome → Prop where
  | mk {output errors : Bytes} {line : String} (hline : line ∈ Text.lines (Text.ofBytes output))
      (h : Breaks depth line) : IsGarbled depth (.exited 0 output errors)

/-- A run brings matches or no answer, or one that cannot be read. -/
theorem outcome_cases (scope : Scope) (outcome : Program.Outcome) :
    (∃ found, scope.Yields outcome found) ∨ IsFailed outcome ∨ IsGarbled scope.depth outcome := by
  cases outcome with
  | notFound => exact .inr (.inl .notFound)
  | notStarted reason => exact .inr (.inl .notStarted)
  | timedOut => exact .inr (.inl .timedOut)
  | exited code output errors =>
    by_cases hone : code = 1
    · subst hone
      exact .inl ⟨[], .nothing⟩
    by_cases hzero : code = 0
    · subst hzero
      obtain ⟨found, hreads⟩ | ⟨⟨line, hline, hbreaks⟩, -⟩ :=
        reads_or_breaks scope (Text.lines (Text.ofBytes output))
      · exact .inl ⟨found, .found hreads⟩
      · exact .inr (.inr (.mk hline hbreaks))
    · exact .inr (.inl (.exited hzero hone))

theorem found_exited_zero (scope : Scope) (output errors : Bytes) :
    scope.found (.exited 0 output errors) =
      (scope.matches? (Text.ofBytes output)).mapError Trouble.mishap := by
  unfold Scope.found
  dsimp only
  cases scope.matches? (Text.ofBytes output) <;> rfl

theorem found_of_yields {scope : Scope} {outcome : Program.Outcome} {found : List Match}
    (h : scope.Yields outcome found) : scope.found outcome = .ok found := by
  cases h with
  | found h =>
    rw [found_exited_zero, matches?_eq_ok_iff.mpr h]
    rfl
  | nothing => rfl

theorem found_of_isGarbled {scope : Scope} {outcome : Program.Outcome}
    (h : IsGarbled scope.depth outcome) : ∃ m, scope.found outcome = .error (.mishap m) := by
  cases h with
  | mk hline h =>
    obtain ⟨m, hm⟩ := (exists_matches?_eq_error_iff scope).mpr ⟨_, hline, h⟩
    rw [found_exited_zero, hm]
    exact ⟨m, rfl⟩

theorem found_of_isFailed {outcome : Program.Outcome} (h : IsFailed outcome) (scope : Scope) :
    ∃ reason code, scope.found outcome = .error (.failure (.fallbackUnavailable reason code)) := by
  cases h with
  | @exited code output errors hzero hone =>
    unfold Scope.found
    simp only [beq_eq_false_iff_ne.mpr hone, bne_iff_ne.mpr hzero, Bool.false_eq_true, if_false, if_true]
    exact ⟨_, _, rfl⟩
  | _ => exact ⟨_, _, rfl⟩

end CodeIndex.LineSearch
