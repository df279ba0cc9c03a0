import CodeIndex.Proofs.Text.Distinct
import CodeIndex.Proofs.Text.Places
import CodeIndex.Template.Scan

/-!
# The grammar of names in a template

What the scans of a template find is what a grammar says: the names behind a mark, the bare names before a
parenthesis, and the qualified calls, of which none begins inside another.  The characters decide each
reading of the grammar: a name ends where no character of a name follows, and a dot that a lower-case name
follows is the last of its chain.
-/

namespace CodeIndex.Template

open Text (isWord)

/-! ## The grammar -/

/-- A name: a lower-case ASCII letter or an underscore, and then such characters and digits. -/
inductive IsName : List Char → Prop where
  | mk {c : Char} {cs : List Char} (hc : isNameStart c = true) (hcs : ∀ x ∈ cs, isNameChar x = true) :
      IsName (c :: cs)

/-- A segment: an upper-case ASCII letter, and then ASCII letters and digits. -/
inductive IsSegment : List Char → Prop where
  | mk {c : Char} {cs : List Char} (hc : isSegmentStart c = true)
      (hcs : ∀ x ∈ cs, isSegmentChar x = true) : IsSegment (c :: cs)

/-- Segments with a dot between two of them. -/
inductive IsChain : List Char → Prop where
  | one {segment : List Char} (h : IsSegment segment) : IsChain segment
  | more {segment chain : List Char} (h : IsSegment segment) (hchain : IsChain chain) :
      IsChain (segment ++ '.' :: chain)

/-- A name right behind a mark, as long as it can be. -/
def MarkedName (mark : List Char) (_before text name : List Char) : Prop :=
  IsName name ∧ ∃ after, text = mark ++ name ++ after ∧ ∀ c ∈ after.head?, isNameChar c = false

/-- A name right before a parenthesis that no word character precedes. -/
def BareCall (before text name : List Char) : Prop :=
  (∀ c ∈ before.getLast?, isWord c = false) ∧ IsName name ∧ ∃ after, text = name ++ '(' :: after

/-- A chain of segments, a dot and a name right before a parenthesis. -/
def QualifiedCall (text call after : List Char) : Prop :=
  ∃ chain name, IsChain chain ∧ IsName name ∧ call = chain ++ '.' :: name ∧ text = call ++ '(' :: after

/-! ## Characters -/

theorem isNameChar_of_isNameStart {c : Char} (h : isNameStart c = true) : isNameChar c = true := by
  rw [isNameChar, h, Bool.true_or]

theorem isSegmentChar_of_isSegmentStart {c : Char} (h : isSegmentStart c = true) :
    isSegmentChar c = true := by
  have hupper : (decide ('A' ≤ c) && decide (c ≤ 'Z')) = true := h
  rw [isSegmentChar, Text.isAsciiLetter, hupper, Bool.or_true, Bool.true_or]

theorem IsName.forall {name : List Char} (h : IsName name) : ∀ c ∈ name, isNameChar c = true := by
  cases h with
  | mk hc hcs => exact List.forall_mem_cons.mpr ⟨isNameChar_of_isNameStart hc, hcs⟩

theorem isSegmentStart_of_isNameStart {c : Char} (h : isNameStart c = true) :
    isSegmentStart c = false := by
  have hle : ∀ a b : Char, a ≤ b ↔ a.toNat ≤ b.toNat := fun _ _ => Iff.rfl
  simp only [isNameStart, Bool.or_eq_true, Bool.and_eq_true, decide_eq_true_eq, beq_iff_eq, hle,
    Char.reduceToNat] at h
  simp only [isSegmentStart, Bool.and_eq_false_iff, decide_eq_false_iff_not, hle, Char.reduceToNat]
  rcases h with h | rfl
  · omega
  · decide

/-! ## Names -/

theorem nameAt?_eq_some {text name : List Char} :
    nameAt? text = some name ↔
      IsName name ∧ ∃ after, text = name ++ after ∧ ∀ c ∈ after.head?, isNameChar c = false := by
  constructor
  · intro h
    cases text with
    | nil => cases h
    | cons c rest =>
      rw [nameAt?] at h
      split at h
      · rename_i hc
        cases h
        obtain ⟨hcs, after, hrest, hafter⟩ := Text.takeWhile_eq_iff.mp (rfl : rest.takeWhile isNameChar = _)
        exact ⟨.mk hc hcs, after, congrArg (c :: ·) hrest, hafter⟩
      · cases h
  · rintro ⟨@⟨c, cs, hc, hcs⟩, after, rfl, hafter⟩
    have htake : (cs ++ after).takeWhile isNameChar = cs :=
      Text.takeWhile_eq_iff.mpr ⟨hcs, after, rfl, hafter⟩
    rw [List.cons_append, nameAt?, if_pos hc, htake]

/-- A name goes no further than to a parenthesis. -/
theorem nameAt?_before_paren {name : List Char} (h : IsName name) (after : List Char) :
    nameAt? (name ++ '(' :: after) = some name := by
  refine nameAt?_eq_some.mpr ⟨h, _, rfl, ?_⟩
  rintro c ⟨⟩
  decide

theorem nameAfter?_eq_some {mark before text name : List Char} :
    nameAfter? mark text = some name ↔ MarkedName mark before text name := by
  unfold nameAfter? MarkedName
  split
  · rename_i hmark
    obtain ⟨rest, rfl⟩ := List.isPrefixOf_iff_prefix.mp hmark
    simp only [List.drop_left, nameAt?_eq_some, List.append_assoc, List.append_cancel_left_eq]
  · rename_i hmark
    refine iff_of_false nofun ?_
    rintro ⟨-, after, rfl, -⟩
    rw [List.append_assoc] at hmark
    exact hmark (List.isPrefixOf_iff_prefix.mpr (List.prefix_append mark _))

/-- The names behind a mark are found from left to right. -/
theorem finds_namesAfter (mark before text : List Char) :
    Text.Finds (MarkedName mark) before text (namesAfter mark text) := by
  induction text generalizing before with
  | nil =>
    refine .nil fun name => ?_
    rintro ⟨⟨hc, hcs⟩, after, htext, -⟩
    simp at htext
  | cons c rest ih =>
    have hcons : namesAfter mark (c :: rest) =
        (nameAfter? mark (c :: rest)).toList ++ namesAfter mark rest := by
      rw [namesAfter]
      cases nameAfter? mark (c :: rest) <;> rfl
    rw [hcons]
    exact .cons _ (fun name => nameAfter?_eq_some) (ih _)

/-! ## Bare calls -/

/-- The name right before a parenthesis at the start of a text, unless a word character precedes it. -/
def bareCallAt? (inWord : Bool) (text : List Char) : Option (List Char) :=
  if inWord then none
  else
    match nameAt? text with
    | some name => if (text.drop name.length).head? == some '(' then some name else none
    | none => none

theorem bareCallsFrom_cons (inWord : Bool) (c : Char) (rest : List Char) :
    bareCallsFrom inWord (c :: rest) =
      (bareCallAt? inWord (c :: rest)).toList ++ bareCallsFrom (isWord c) rest := by
  change (match bareCallAt? inWord (c :: rest) with
    | some name => name :: bareCallsFrom (isWord c) rest
    | none => bareCallsFrom (isWord c) rest) = _
  cases bareCallAt? inWord (c :: rest) <;> rfl

/-- The scanner finds a bare call exactly where the grammar has one. -/
theorem bareCallAt?_eq_some {before text name : List Char} :
    bareCallAt? (before.getLast?.any isWord) text = some name ↔ BareCall before text name := by
  unfold bareCallAt? BareCall
  rw [Text.forall_mem_getLast?_iff]
  cases before.getLast?.any isWord with
  | true => simp
  | false =>
    rw [if_neg Bool.false_ne_true]
    constructor
    · intro h
      split at h
      · rename_i found hfound
        obtain ⟨hname, after, rfl, -⟩ := nameAt?_eq_some.mp hfound
        split at h
        · rename_i hparen
          cases h
          rw [List.drop_left, beq_iff_eq, List.head?_eq_some_iff] at hparen
          obtain ⟨after, rfl⟩ := hparen
          exact ⟨rfl, hname, after, rfl⟩
        · cases h
      · cases h
    · rintro ⟨-, hname, after, rfl⟩
      rw [nameAt?_before_paren hname]
      simp

/-- The bare calls are found from left to right. -/
theorem finds_bareCallsFrom (before text : List Char) :
    Text.Finds BareCall before text (bareCallsFrom (before.getLast?.any isWord) text) := by
  induction text generalizing before with
  | nil =>
    refine .nil fun name => ?_
    rintro ⟨-, -, after, htext⟩
    simp at htext
  | cons c rest ih =>
    have hrest := ih (before ++ [c])
    rw [List.getLast?_concat, Option.any_some] at hrest
    rw [bareCallsFrom_cons]
    exact .cons _ (fun name => bareCallAt?_eq_some) hrest

/-! ## Qualified calls -/

theorem chainTail_cons {c : Char} (hc : isSegmentChar c = true) (rest : List Char) :
    chainTail (c :: rest) = c :: chainTail rest := by
  cases rest with
  | nil => simp [chainTail, hc]
  | cons d rest => rw [chainTail, if_pos hc]

theorem chainTail_append {cs : List Char} (hcs : ∀ c ∈ cs, isSegmentChar c = true) (rest : List Char) :
    chainTail (cs ++ rest) = cs ++ chainTail rest := by
  induction cs with
  | nil => rfl
  | cons c cs ih =>
    rw [List.forall_mem_cons] at hcs
    rw [List.cons_append, chainTail_cons hcs.1, ih hcs.2, List.cons_append]

theorem chainTail_dot {d : Char} (hd : isSegmentStart d = true) (rest : List Char) :
    chainTail ('.' :: d :: rest) = '.' :: d :: chainTail rest := by
  have hdot : isSegmentChar '.' = false := by decide
  rw [chainTail, hdot, hd, chainTail_cons (isSegmentChar_of_isSegmentStart hd)]
  rfl

/-- A dot that no segment follows is behind the chain. -/
theorem chainTail_last {rest : List Char} (h : ∀ d ∈ rest.head?, isSegmentStart d = false) :
    chainTail ('.' :: rest) = [] := by
  have hdot : isSegmentChar '.' = false := by decide
  cases rest with
  | nil => rw [chainTail, hdot]; rfl
  | cons d rest => rw [chainTail, hdot, h d rfl]; rfl

/-- A segment and what the chain goes on with are a chain. -/
theorem isChain_chainTail : (rest segment : List Char) → IsSegment segment →
    IsChain (segment ++ chainTail rest)
  | [], segment, h => by
    rw [chainTail, List.append_nil]
    exact .one h
  | c :: rest, segment, h => by
    by_cases hc : isSegmentChar c = true
    · -- the segment goes on
      have hlonger : IsSegment (segment ++ [c]) := by
        obtain ⟨hs, hcs⟩ := h
        refine .mk hs fun x hx => ?_
        rcases List.mem_append.mp hx with hx | hx
        · exact hcs x hx
        · exact List.mem_singleton.mp hx ▸ hc
      have hchain := isChain_chainTail rest (segment ++ [c]) hlonger
      rwa [List.append_assoc, List.singleton_append, ← chainTail_cons hc] at hchain
    · cases rest with
      | nil =>
        rw [chainTail, if_neg hc, List.append_nil]
        exact .one h
      | cons d rest =>
        by_cases hdot : c = '.' ∧ isSegmentStart d = true
        · -- another segment begins behind the dot
          obtain ⟨rfl, hd⟩ := hdot
          rw [chainTail_dot hd]
          exact .more h (isChain_chainTail rest [d] (.mk hd (by simp)))
        · have hend : (c == '.' && isSegmentStart d) = false := by simpa using hdot
          rw [chainTail, if_neg hc, hend, if_neg Bool.false_ne_true, List.append_nil]
          exact .one h

theorem prefix_chainTail (rest : List Char) : chainTail rest <+: rest := by
  fun_induction chainTail rest with
  | case1 => exact List.prefix_refl []
  | case2 c hc => exact List.prefix_refl [c]
  | case3 c hc => exact List.nil_prefix
  | case4 c d rest hc ih => exact List.cons_prefix_cons.mpr ⟨rfl, ih⟩
  | case5 c d rest hc hdot ih => exact List.cons_prefix_cons.mpr ⟨rfl, ih⟩
  | case6 c d rest hc hdot => exact List.nil_prefix

/-- The chain before a dot that no segment follows is read to its end. -/
theorem IsChain.chainTail {chain : List Char} (h : IsChain chain) {after : List Char}
    (hafter : ∀ d ∈ after.head?, isSegmentStart d = false) :
    ∃ c cs, chain = c :: cs ∧ isSegmentStart c = true ∧
      Template.chainTail (cs ++ '.' :: after) = cs := by
  induction h with
  | one h =>
    obtain ⟨hc, hcs⟩ := h
    refine ⟨_, _, rfl, hc, ?_⟩
    rw [chainTail_append hcs, chainTail_last hafter, List.append_nil]
  | @more segment chain h hchain ih =>
    obtain @⟨c, cs, hc, hcs⟩ := h
    obtain ⟨d, ds, rfl, hd, hds⟩ := ih
    refine ⟨c, cs ++ '.' :: d :: ds, rfl, hc, ?_⟩
    rw [List.append_assoc, chainTail_append hcs, List.cons_append, List.cons_append, chainTail_dot hd, hds]

/-- The scanner finds a qualified call exactly where the grammar has one. -/
theorem qualifiedCallAt?_eq_some {text call : List Char} {size : Nat} :
    qualifiedCallAt? text = some (call, size) ↔
      ∃ after, QualifiedCall text call after ∧ size = call.length + 1 := by
  constructor
  · intro h
    cases text with
    | nil => cases h
    | cons c rest =>
      rw [qualifiedCallAt?] at h
      split at h
      · rename_i hc
        have htail := List.prefix_iff_eq_append.mp (prefix_chainTail rest)
        simp only [List.length_cons, List.drop_succ_cons] at h
        generalize rest.drop (chainTail rest).length = tail at h htail
        split at h
        · rename_i after
          split at h
          · rename_i name hfound
            obtain ⟨hname, after, rfl, -⟩ := nameAt?_eq_some.mp hfound
            rw [List.drop_left] at h
            split at h
            · rename_i after
              cases h
              refine ⟨after, ⟨c :: chainTail rest, name, ?_, hname, rfl, ?_⟩, ?_⟩
              · exact isChain_chainTail rest [c] (.mk hc nofun)
              · exact (congrArg (c :: ·) htail.symm).trans (by simp)
              · simp only [List.length_append, List.length_cons]
                omega
            · cases h
          · cases h
        · cases h
      · cases h
  · rintro ⟨after, ⟨chain, name, hchain, hname, rfl, rfl⟩, rfl⟩
    have hhead : ∀ d ∈ (name ++ '(' :: after).head?, isSegmentStart d = false := by
      obtain ⟨hd, -⟩ := hname
      rintro d ⟨⟩
      exact isSegmentStart_of_isNameStart hd
    obtain ⟨c, cs, rfl, hc, hcs⟩ := hchain.chainTail hhead
    have htext : c :: cs ++ '.' :: name ++ '(' :: after = c :: (cs ++ '.' :: (name ++ '(' :: after)) := by
      simp
    rw [htext, qualifiedCallAt?, if_pos hc, hcs]
    simp only [List.length_cons, List.drop_succ_cons, List.drop_left, nameAt?_before_paren hname,
      List.length_append, Option.some.injEq, Prod.mk.injEq, true_and]
    omega

theorem qualifiedCallsFrom_eq (skip : Nat) (text : List Char) :
    qualifiedCallsFrom skip text = qualifiedCallsFrom 0 (text.drop skip) := by
  induction text generalizing skip with
  | nil => cases skip <;> rfl
  | cons c rest ih =>
    cases skip with
    | zero => rfl
    | succ skip => exact ih skip

/-- The qualified calls are found from left to right, none of them inside another. -/
theorem findsApart_qualifiedCallsFrom (text : List Char) :
    Text.FindsApart QualifiedCall text (qualifiedCallsFrom 0 text) := by
  induction h : text.length using Nat.strongRecOn generalizing text with
  | ind n ih =>
    cases text with
    | nil =>
      refine .none fun place hplace call after hcall => ?_
      obtain ⟨chain, name, -, -, -, htext⟩ := hcall
      rw [List.suffix_nil.mp hplace] at htext
      simp at htext
    | cons c rest =>
      rw [List.length_cons] at h
      rw [qualifiedCallsFrom]
      cases hfound : qualifiedCallAt? (c :: rest) with
      | none =>
        refine .skip (fun call after hcall => ?_) (ih rest.length (by omega) rest rfl)
        rw [qualifiedCallAt?_eq_some.mpr ⟨after, hcall, rfl⟩] at hfound
        cases hfound
      | some found =>
        obtain ⟨call, size⟩ := found
        obtain ⟨after, hcall, rfl⟩ := qualifiedCallAt?_eq_some.mp hfound
        -- the scan goes on behind the parenthesis
        obtain ⟨chain, name, -, -, -, htext⟩ := id hcall
        have hafter : rest.drop call.length = after := by
          have hdrop := congrArg (List.drop (call.length + 1)) htext
          simpa using hdrop
        have hlength : after.length < n := by
          have hle := congrArg List.length htext
          rw [List.length_append, List.length_cons, List.length_cons] at hle
          omega
        refine .here hcall ?_
        rw [Nat.add_sub_cancel, qualifiedCallsFrom_eq, hafter]
        exact ih after.length hlength after rfl

/-! ## What is found -/

/-- What a template uses is what the grammar finds in it.  Component tags and bound variables are the names
behind their marks, each once and in the order in which they first occur.  The calls are the qualified ones
from left to right, of which none begins inside another, and then the bare ones that are neither control
keywords nor listed already. -/
theorem uses_by_grammar (content : String) :
    (∃ names, Text.Finds (MarkedName ['<', '.']) [] content.toList names ∧
        components content = (names.map String.ofList).eraseDups) ∧
      (∃ names, Text.Finds (MarkedName ['@']) [] content.toList names ∧
        assigns content = (names.map String.ofList).eraseDups) ∧
      ∃ qualified bare, Text.FindsApart QualifiedCall content.toList qualified ∧
        Text.Finds BareCall [] content.toList bare ∧
        calls content = (qualified.map String.ofList).eraseDups ++
          ((bare.map String.ofList).filter fun name =>
            name ∉ controlKeywords ∧ name ∉ qualified.map String.ofList).eraseDups := by
  refine ⟨⟨_, finds_namesAfter _ _ _, Text.distinct_eq_eraseDups _⟩,
    ⟨_, finds_namesAfter _ _ _, Text.distinct_eq_eraseDups _⟩,
    _, _, findsApart_qualifiedCallsFrom _, finds_bareCallsFrom [] _, ?_⟩
  rw [calls, Text.distinct_append, Text.distinct_eq_eraseDups, Text.distinct_eq_eraseDups,
    List.filter_filter]
  congr 3
  funext name
  rw [Bool.eq_iff_iff]
  simp only [List.contains_eq_mem, Bool.and_eq_true, Bool.not_eq_true', decide_eq_false_iff_not,
    decide_eq_true_eq]
  exact and_comm

end CodeIndex.Template
