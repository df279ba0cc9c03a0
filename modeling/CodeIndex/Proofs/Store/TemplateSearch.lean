import CodeIndex.Proofs.Store.FreeText
import CodeIndex.Proofs.Template.Uses

/-!
# Searching for what a template uses

A name that a template uses finds the template, bare or qualified, if it has a letter or a digit.  Whatever
query the name is taken for, it matches the rows that have the tokens of each of its words side by side in a
column, and the lexical text of the template is such a column.
-/

namespace CodeIndex

/-- An entity has each word of a text in its identity, its container or its lexical text. -/
def Entity.HasWords (e : Entity) (text : String) : Prop :=
  ∀ word ∈ Text.words text, (Store.Tables.textRow e).Has word

instance (e : Entity) (text : String) : Decidable (e.HasWords text) :=
  inferInstanceAs (Decidable (∀ word ∈ Text.words text, _))

namespace Store

open Template (components assigns)

/-! ## The query that a name comes to -/

/-- A name with a letter or a digit is taken for a query that matches the entities which have its words. -/
theorem exists_taken?_of_use {content name : String}
    (hname : name ∈ components content ++ assigns content ++ Template.calls content)
    (hword : ∃ c ∈ name.toList, (Text.isAsciiLetter c || Text.isAsciiDigit c) = true) :
    ∃ q, taken? name = some q ∧
      ∀ e : Entity, q.accepts (Tables.textRow e) = true ↔ e.HasWords name := by
  unfold taken? Entity.HasWords
  rcases Template.isName_or_isQualified hname with hbare | hqualified
  · have hne : FullText.tokens name ≠ [] := by
      obtain ⟨c, hc, hascii⟩ := hword
      exact FullText.tokens_ne_nil ⟨c, hc, FullText.isTokenChar_of_isAscii hascii⟩
    rw [hbare.ofString?, Text.words_of_all hbare.ne_nil hbare.isWord]
    refine ⟨_, rfl, fun e => ?_⟩
    rw [List.forall_mem_singleton]
    exact FullText.Query.accepts_ofPhrase hne
  · obtain ⟨q, hq, haccepts⟩ := hqualified.ofString?_quoteQuery
    rw [hqualified.ofString?]
    exact ⟨q, hq, fun e => haccepts _⟩

theorem allBlank_of_isAscii {text : String}
    (h : ∃ c ∈ text.toList, (Text.isAsciiLetter c || Text.isAsciiDigit c) = true) :
    Text.allBlank text = false := by
  obtain ⟨c, hc, hascii⟩ := h
  rw [Text.allBlank, List.all_eq_false]
  exact ⟨c, hc, Bool.eq_false_iff.mp (FullText.isBlank_of_isAscii hascii)⟩

/-! ## What it finds -/

theorem hasWords_of_use {path content : String} {sourceDirs extensions : List String} {e : Entity}
    (he : Template.entity path content sourceDirs extensions = .ok e) {name : String}
    (hname : name ∈ components content ++ assigns content ++ Template.calls content) :
    e.HasWords name := by
  intro word hword
  have hinfix := FullText.infix_of_mem_words hword (Template.isWord_or_isBreak_of_use hname)
  exact ⟨.lexicalText, hinfix.trans (Template.infix_lexicalText he hname)⟩

/-- However a store came about from one that was never built, each name that a template uses finds the
template if the store holds it, provided the name has a letter or a digit and there is room for all
entities.  Each entity that has the words of the name is found, once, and nothing else is. -/
theorem search_of_use {s : Store} (hs : s.disk.tables? = none) {calls : List Call}
    (hcalls : ∀ call ∈ calls, IsNormal call.asked) {t : Tables} (ht : (run s calls).disk.tables? = some t)
    {cat : Catalog} (hc : cat = Catalog.ofRun ∅ s calls)
    {path content : String} {sourceDirs extensions : List String} {e : Entity}
    (he : Template.entity path content sourceDirs extensions = .ok e) (hmem : e ∈ cat.entities)
    {name : String} (hname : name ∈ components content ++ assigns content ++ Template.calls content)
    (hword : ∃ c ∈ name.toList, (Text.isAsciiLetter c || Text.isAsciiDigit c) = true)
    {k : Int} (hk : cat.size ≤ k) (hrange : k < integerBound) :
    ∃ hits s', (search (.whole name) k).on (run s calls) = (.ok hits, s') ∧
      (∃ hit ∈ hits, hit.entity = Tables.row e) ∧ (hits.map (·.entity.id)).Nodup ∧
      (hits.map Hit.entity).Perm ((cat.entities.filter (·.HasWords name)).map Tables.row) := by
  subst hc
  have h := represents_of_unbuilt hs hcalls ht
  obtain ⟨q, hq, haccepts⟩ := exists_taken?_of_use hname hword
  have hfilter : (fun x => q.accepts (Tables.textRow x)) = fun x => decide (x.HasWords name) := by
    funext x
    rw [Bool.eq_iff_iff, haccepts, decide_eq_true_eq]
  have hfound := h.found_perm hq hk
  rw [hfilter] at hfound
  -- the template is among the entities that have the words
  have hrow : Tables.row e ∈ (t.found name k).map Hit.entity :=
    hfound.mem_iff.mpr (List.mem_map_of_mem
      (List.mem_filter.mpr ⟨hmem, decide_eq_true (hasWords_of_use he hname)⟩))
  obtain ⟨events, hon⟩ := on_search ht h.isSound (.whole name) k
  rw [t.searched_of_not_blank (allBlank_of_isAscii hword) hrange] at hon
  exact ⟨_, _, hon, List.mem_map.mp hrow, h.lockstep.nodup_found name k, hfound⟩

/-- The content of a template with a component, a variable and a function of a module. -/
def greetingText : String :=
  "<.a_b x={@y}>{Mod.Sub.fun(1)}</.a_b>"

def greeting : Entity :=
  { id := "4189dfc9cab3c1555a1a7e2a094b9bdfa9a02550e665b579a4905dabc55d4340"
    container := "M.X", name := "template", arity := 0, kind := .template, path := "lib/m/x.heex"
    startLine := 1, endLine := 1, signature := some "template"
    doc := some "Template with components: a_b"
    lexicalText := "M.X template heex a_b y Mod.Sub.fun fun", rawText := some greetingText
    references := ["Mod.Sub.fun", "fun"] }

theorem entity_greetingText :
    Template.entity "lib/m/x.heex" greetingText ["lib"] [".heex"] = .ok greeting :=
  congrArg Checked.ok (by decide +kernel)

/-- The template, and an entity that has two words of the qualified name but not the third. -/
def greetingAndOther : List Call :=
  [{ asked := .rebuild [.entity greeting, .entity { annotated with lexicalText := "Mod.fun" }] }]

theorem search_of_greeting :
    ∃ hits s', (search (.whole "Mod.Sub.fun") 2).on (run { path := "index.db" } greetingAndOther) = (.ok hits, s') ∧
      hits.map Hit.entity = [Tables.row greeting] := by
  obtain ⟨t, ht⟩ : ∃ t, (run { path := "index.db" } greetingAndOther).disk.tables? = some t :=
    Option.isSome_iff_exists.mp (by decide +kernel)
  have hword : ∃ c ∈ "Mod.Sub.fun".toList, (Text.isAsciiLetter c || Text.isAsciiDigit c) = true :=
    ⟨'M', by decide, by decide⟩
  have hname : "Mod.Sub.fun" ∈
      components greetingText ++ assigns greetingText ++ Template.calls greetingText := by
    decide +kernel
  obtain ⟨hits, s', hon, -, -, hperm⟩ :=
    search_of_use (s := { path := "index.db" }) rfl (by decide) ht rfl entity_greetingText
      (by decide +kernel) hname hword (k := 2) (by decide +kernel) (by decide)
  have hwords : (Catalog.ofRun ∅ { path := "index.db" } greetingAndOther).entities.filter
      (·.HasWords "Mod.Sub.fun") = [greeting] := by
    decide +kernel
  rw [hwords, List.map_singleton, List.perm_singleton] at hperm
  exact ⟨hits, s', hon, hperm⟩

/-- A number that the tables cannot hold is refused though there are fewer entities. -/
theorem search_refused_of_greeting :
    let s' := run { path := "index.db" } greetingAndOther
    let cat := Catalog.ofRun ∅ { path := "index.db" } greetingAndOther
    Template.entity "lib/m/x.heex" greetingText ["lib"] [".heex"] = .ok greeting ∧
      greeting ∈ cat.entities ∧ "a_b" ∈ components greetingText ∧ cat.size < integerBound ∧
      ∃ s'', (search (.whole "a_b") integerBound).on s' = (.error (.mishap .integerTooLarge), s'') := by
  intro s' cat
  obtain ⟨t, ht⟩ : ∃ t, s'.disk.tables? = some t := Option.isSome_iff_exists.mp (by decide +kernel)
  exact ⟨entity_greetingText, by decide +kernel, by decide +kernel, by decide +kernel, _,
    on_search_of_not_inRange ht (by decide) (by decide) (by decide)⟩

end Store

end CodeIndex
