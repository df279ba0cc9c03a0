import CodeIndex.Proofs.Record.Document
import CodeIndex.Proofs.Value.Grammar

/-!
# Documents of spelled objects

Objects that are spelled on one line each, and each line ended by a line feed, are read back as they are:
the batch of the document has the drafts that checking the objects one by one gives.  The line feed is
not the only character at which a document is cut, so that a line has to be free of all of them: three may
stand in a string unescaped, U+0085, U+2028 and U+2029.
-/

namespace CodeIndex

open Value (Blank Spells IsUnescaped forall_isUnescaped)

/-- A text that spells a map, nested no deeper than some bound, with blanks around it. -/
def IsSpelling (depth : Nat) (ms : List (String × Value)) (s : String) : Prop :=
  ∃ before cs after, s.toList = before ++ cs ++ after ∧ Blank before ∧ Blank after ∧
    Spells depth (.value (.map ms)) cs

/-- Trimming takes the blanks away and leaves what spells the map. -/
theorem Reading.ofLine_of_isSpelling {depth : Nat} {ms : List (String × Value)} {s : String}
    (h : IsSpelling depth ms s) : Reading.ofLine s depth = Reading.ofValue (.map ms) := by
  obtain ⟨before, cs, after, hs, hbefore, hafter, hcs⟩ := h
  obtain ⟨⟨tail, htail⟩, start, hstart⟩ := hcs.isBraced
  have hne : cs ≠ [] := by
    rintro rfl
    cases htail
  have hstrip : Text.strip s = String.ofList cs := by
    rw [Text.strip, hs, Text.trimBoth_append (Value.isBlank_of_blank hbefore)
      (Value.isBlank_of_blank hafter) hne]
    · intro c hc
      rw [← htail] at hc
      obtain rfl := Option.some.inj hc
      decide
    · intro c hc
      rw [← hstart, List.getLast?_concat] at hc
      obtain rfl := Option.some.inj hc
      decide
  have hempty : (String.ofList cs == "") = false := by
    rw [beq_eq_false_iff_ne, Ne, String.ofList_eq_empty_iff]
    exact hne
  unfold Reading.ofLine
  simp only [hstrip, hempty, Value.ofJson?_of_spells hcs, Bool.false_eq_true, if_false]

namespace Batch

def document (texts : List String) : String :=
  String.join (texts.map (· ++ "\n"))

theorem lines_document {texts : List String}
    (h : ∀ s ∈ texts, ∀ c ∈ s.toList, Text.isLineBreak c = false) :
    Text.lines (document texts) = texts := by
  unfold Text.lines document
  rw [String.toList_join, List.flatMap_map]
  induction texts with
  | nil => rfl
  | cons s rest ih =>
    rw [List.forall_mem_cons] at h
    have hline : (s ++ "\n").toList = s.toList ++ ['\n'] := String.toList_append
    rw [List.flatMap_cons, hline, List.append_assoc, List.singleton_append,
      Text.linesFrom_append_lineFeed h.1, List.map_cons, String.ofList_toList, ih h.2]

theorem numbered_map {α β : Type} (f : α → β) (items : List α) :
    numbered (items.map f) = (numbered items).map fun (i, x) => (i, f x) := by
  rw [numbered, numbered, List.zipIdx_map, List.map_map, List.map_map]
  rfl

theorem map_snd_numbered {α : Type} (items : List α) : (numbered items).map Prod.snd = items := by
  have h := numbered_eq id items
  rw [List.map_map, List.map_id] at h
  exact h

theorem filterMap_numbered {α β : Type} (f : α → Option β) (items : List α) :
    ((numbered items).filterMap fun item => f item.2) = items.filterMap f := by
  conv_rhs => rw [← map_snd_numbered items, List.filterMap_map]
  rfl

/-- A document of spelled objects is as good as the objects. -/
theorem ofText_eq {depth : Nat} {objects : List (List (String × Value) × String)}
    (hspelled : ∀ o ∈ objects, IsSpelling depth o.1 o.2)
    (hline : ∀ o ∈ objects, ∀ c ∈ o.2.toList, Text.isLineBreak c = false) (source : Option String) :
    ofText (document (objects.map Prod.snd)) source depth =
      ofReadings source ((numbered objects).map fun (i, o) => (i, Reading.ofValue (.map o.1))) := by
  rw [ofText, lines_document (List.forall_mem_map.mpr hline), numbered_map, List.map_map]
  refine congrArg (ofReadings source) (List.map_congr_left ?_)
  rintro ⟨i, o⟩ ho
  have hmem : o ∈ objects := by
    rw [← map_snd_numbered objects]
    exact List.mem_map_of_mem ho
  exact congrArg (Prod.mk i) (Reading.ofLine_of_isSpelling (hspelled o hmem))

/-- The draft that a map is, if its check passes. -/
def checked? (ms : List (String × Value)) : Option Draft :=
  match Draft.ofValue (.map ms) with
  | .ok d => some d
  | .faults _ => none

theorem ofReadings_ofValue (i : Option Int) (source : Option String) (ms : List (String × Value)) :
    (Reading.ofValue (.map ms)).draft? = checked? ms ∧
      (ofReadings source [(i, Reading.ofValue (.map ms))]).malformed.map
          (fun m => (m.line, m.source)) =
        if (checked? ms).isNone then [(i, source)] else [] := by
  unfold checked? Reading.ofValue
  cases Draft.ofValue (.map ms) <;> exact ⟨rfl, rfl⟩

/-- Objects that are spelled on one line each, and put in a document with a line feed after each, are read
to the end: the drafts are those that checking the objects one by one gives, in order, and what is
complained about is each object that fails its check. -/
theorem ofText_document {depth : Nat} {objects : List (List (String × Value) × String)}
    (hspelled : ∀ o ∈ objects, IsSpelling depth o.1 o.2)
    (hline : ∀ o ∈ objects, ∀ c ∈ o.2.toList, Text.isLineBreak c = false) (source : Option String) :
    (ofText (document (objects.map Prod.snd)) source depth).stopped = none ∧
      (ofText (document (objects.map Prod.snd)) source depth).drafts =
          objects.filterMap (fun o => checked? o.1) ∧
      (ofText (document (objects.map Prod.snd)) source depth).malformed.map (fun m => (m.line, m.source)) =
          ((numbered objects).filter fun item => (checked? item.2.1).isNone).map
            fun item => (item.1, source) := by
  rw [ofText_eq hspelled hline]
  have hread : ∀ r ∈ (numbered objects).map (fun (i, o) => (i, Reading.ofValue (.map o.1))),
      r.2.isRefused = false :=
    List.forall_mem_map.mpr fun (_, o) _ => Reading.isRefused_ofValue (.map o.1)
  have hstopped := (stopped_ofReadings source _).mpr hread
  refine ⟨hstopped, ?_, ?_⟩
  · have hdrafts := filterMap_numbered (fun o => checked? o.1) objects
    rw [drafts_ofReadings hstopped, List.filterMap_map, ← hdrafts]
    apply List.filterMap_congr
    intro item _
    exact (ofReadings_ofValue item.1 source item.2.1).1
  · rw [(ofReadings_eq source hread).2, List.flatMap_map, List.map_flatMap, filter_map_eq_flatMap]
    apply List.flatMap_congr
    intro item _
    exact (ofReadings_ofValue item.1 source item.2.1).2

/-! ## Some objects -/

/-- The text of members from a first one on. -/
def membersText (m : String × Value × List Char) : List (String × Value × List Char) → List Char
  | [] => '\x22' :: (m.1.toList ++ '\x22' :: ([] ++ ':' :: ([' '] ++ (m.2.2 ++ ([] ++ ['\x7d'])))))
  | next :: rest =>
    '\x22' :: (m.1.toList ++ '\x22' :: ([] ++ ':' :: ([' '] ++ (m.2.2 ++ ([] ++
      ',' :: ([' '] ++ membersText next rest))))))

theorem spells_membersText {depth : Nat} {m : String × Value × List Char}
    {rest : List (String × Value × List Char)}
    (h : ∀ x ∈ m :: rest, (∀ c ∈ x.1.toList, IsUnescaped c) ∧ Spells depth (.value x.2.1) x.2.2) :
    Spells depth (.members ((m :: rest).map fun x => (x.1, x.2.1))) (membersText m rest) := by
  have hnone : Blank [] := by nofun
  have hspace : Blank [' '] := List.forall_mem_singleton.mpr rfl
  have hname : ∀ x : String × Value × List Char,
      Value.keyOfPoints (x.1.toList.map Char.toNat) = x.1 := by
    intro x
    rw [Value.keyOfPoints_toNat, String.ofList_toList]
  induction rest generalizing m with
  | nil =>
    obtain ⟨hkey, hvalue⟩ := h m List.mem_cons_self
    have hlast := Spells.lastMember (.of_unescaped hkey) hnone hspace hvalue hnone
    rwa [hname] at hlast
  | cons next rest ih =>
    rw [List.forall_mem_cons] at h
    obtain ⟨⟨hkey, hvalue⟩, hrest⟩ := h
    have hnext := Spells.member (.of_unescaped hkey) hnone hspace hvalue hnone hspace (ih hrest)
    rwa [hname] at hnext

/-- An entity with a documentation, the members without it and how each value is spelled. -/
def describedMembers (doc : String × List Char) : List (String × Value × List Char) :=
  [("doc", .text doc.1, doc.2), ("container", .text "A", "\x22A\x22".toList),
    ("name", .text "f", "\x22f\x22".toList), ("arity", .int 0, "0".toList),
    ("path", .text "a.ex", "\x22a.ex\x22".toList), ("start_line", .int 0, "0".toList)]

def describedText (doc : String × List Char) : String :=
  String.ofList ('\x7b' :: ([] ++ membersText ("id", .text "x", "\x22x\x22".toList)
    (describedMembers doc)))

def described (doc : String × List Char) : List (String × Value) :=
  Value.Members.ofPairs ((("id", .text "x", "\x22x\x22".toList) :: describedMembers doc).map
    fun x => (x.1, x.2.1))

theorem isSpelling_described {doc : String × List Char}
    (h : ∀ depth, Spells depth (.value (.text doc.1)) doc.2) :
    IsSpelling Value.depthLimit (described doc) (describedText doc) := by
  have hnone : Blank [] := by nofun
  have htext : ∀ s : String, (∀ c ∈ s.toList, IsUnescaped c) → ∀ depth,
      Spells depth (.value (.text s)) ('\x22' :: (s.toList ++ ['\x22'])) := by
    intro s hs depth
    have hspells : Spells depth (.value (.text (String.ofList s.toList))) _ := Spells.text hs
    rwa [String.ofList_toList] at hspells
  have hdigit : ∀ depth, Spells depth (.value (.int 0)) "0".toList := fun depth =>
    .number (.int false .zero (by decide))
  refine ⟨[], _, [], ?_, hnone, hnone, .map hnone (spells_membersText ?_)⟩
  · rw [describedText, String.toList_ofList, List.append_nil]
    rfl
  · simp only [describedMembers, List.forall_mem_cons]
    refine ⟨⟨?_, htext "x" (forall_isUnescaped (by decide)) _⟩, ⟨?_, h _⟩,
      ⟨?_, htext "A" (forall_isUnescaped (by decide)) _⟩,
      ⟨?_, htext "f" (forall_isUnescaped (by decide)) _⟩, ⟨?_, hdigit _⟩,
      ⟨?_, htext "a.ex" (forall_isUnescaped (by decide)) _⟩, ⟨?_, hdigit _⟩, List.forall_mem_nil _⟩
    all_goals exact forall_isUnescaped (by decide)

/-- Letters outside ASCII as they are, and a line separator that is escaped. -/
def plainDoc : String × List Char :=
  ("\u00e9\u2603\u2028", '\x22' :: (['\u00e9', '\u2603', '\\', 'u', '2', '0', '2', '8'] ++ ['\x22']))

def brokenDoc : String × List Char :=
  ("\u00e9\u2603\u2028", '\x22' :: (['\u00e9', '\u2603', '\u2028'] ++ ['\x22']))

theorem spells_plainDoc (depth : Nat) : Spells depth (.value (.text plainDoc.1)) plainDoc.2 := by
  have hbody : Value.Body [0xE9, 0x2603, 0x2028] ['\u00e9', '\u2603', '\\', 'u', '2', '0', '2', '8'] :=
    .plain (c := '\u00e9') (by decide) (by decide) (by decide)
      (.plain (c := '\u2603') (by decide) (by decide) (by decide) (.unit rfl nofun .nil))
  exact Spells.string hbody

theorem spells_brokenDoc (depth : Nat) : Spells depth (.value (.text brokenDoc.1)) brokenDoc.2 := by
  have hunescaped : ∀ c ∈ ['\u00e9', '\u2603', '\u2028'], IsUnescaped c :=
    forall_isUnescaped (by decide)
  exact Spells.text hunescaped

theorem ofText_document_described :
    (ofText (document [describedText plainDoc, "\x7b\x7d"]) none).stopped = none ∧
      (ofText (document [describedText plainDoc, "\x7b\x7d"]) none).drafts.length = 1 ∧
      (ofText (document [describedText plainDoc, "\x7b\x7d"]) none).malformed.map
        (fun m => (m.line, m.source)) = [(some 2, none)] := by
  have hnone : Blank [] := by nofun
  have hempty : IsSpelling Value.depthLimit [] "\x7b\x7d" :=
    ⟨[], ['\x7b', '\x7d'], [], rfl, hnone, hnone, .emptyMap hnone⟩
  have hspelled : ∀ o ∈ [(described plainDoc, describedText plainDoc), ([], "\x7b\x7d")],
      IsSpelling Value.depthLimit o.1 o.2 := by
    rw [List.forall_mem_cons, List.forall_mem_singleton]
    exact ⟨isSpelling_described spells_plainDoc, hempty⟩
  have hline : ∀ o ∈ [(described plainDoc, describedText plainDoc), ([], "\x7b\x7d")],
      ∀ c ∈ o.2.toList, Text.isLineBreak c = false := by
    rw [List.forall_mem_cons, List.forall_mem_singleton]
    exact ⟨unbroken_of_all (by decide +kernel), unbroken_of_all (by decide +kernel)⟩
  obtain ⟨hstopped, hdrafts, hmalformed⟩ := ofText_document hspelled hline none
  -- the first object passes its check, the second has no members
  have hpasses : (checked? (described plainDoc)).isSome = true := by decide +kernel
  have hfails : checked? [] = none := rfl
  obtain ⟨d, hd⟩ := Option.isSome_iff_exists.mp hpasses
  refine ⟨hstopped, ?_, ?_⟩
  · refine (congrArg List.length hdrafts).trans ?_
    simp only [List.filterMap_cons, hd, hfails, List.filterMap_nil, List.length_singleton]
  · refine hmalformed.trans ?_
    have hitems : numbered [(described plainDoc, describedText plainDoc), ([], "\x7b\x7d")] =
        [(some 1, (described plainDoc, describedText plainDoc)), (some 2, ([], "\x7b\x7d"))] := rfl
    rw [hitems]
    simp [hd, hfails]

/-- The object passes its check and is spelled on one line, but its document is cut in two pieces, and
neither of them is an object. -/
theorem lost_of_lineSeparator :
    IsSpelling Value.depthLimit (described brokenDoc) (describedText brokenDoc) ∧
      '\n' ∉ (describedText brokenDoc).toList ∧ (checked? (described brokenDoc)).isSome = true ∧
      (ofText (document [describedText brokenDoc]) none).drafts = [] ∧
      (ofText (document [describedText brokenDoc]) none).malformed.length = 2 := by
  have hread : (ofText (document [describedText brokenDoc]) none).drafts = [] ∧
      (ofText (document [describedText brokenDoc]) none).malformed.length = 2 := by
    decide +kernel
  exact ⟨isSpelling_described spells_brokenDoc, by decide +kernel, by decide +kernel, hread⟩

end Batch

end CodeIndex
