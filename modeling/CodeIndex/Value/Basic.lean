/-!
# Values

What a JSON line or a YAML file denotes: scalars, lists and maps.  A map keeps its members in order.
Integers and floating point numbers are different values, and so are a text and a `broken` text, which
holds code points that no character has (unpaired surrogates).
-/

namespace CodeIndex

/-- Whether a code point is a surrogate, which no character has. -/
def isSurrogate (n : Nat) : Bool :=
  0xD800 ≤ n && n ≤ 0xDFFF

/-- A text as a program may hold it.  One with unpaired surrogates is a text like any other, but no
encoding has it, so it can be neither written nor stored. -/
inductive Writing where
  | whole (s : String)
  | broken (points : List Nat)
  deriving Repr, DecidableEq

namespace Writing

instance : Inhabited Writing := ⟨.whole ""⟩

instance : Coe String Writing := ⟨.whole⟩

instance : Coe (List String) (List Writing) := ⟨List.map .whole⟩

def whole? : Writing → Option String
  | .whole s => some s
  | .broken _ => none

@[simp] theorem whole?_whole (s : String) : whole? (.whole s) = some s := rfl

def wholes (texts : List Writing) : List String :=
  texts.filterMap whole?

@[simp] theorem wholes_map (own : List String) : wholes (own.map .whole) = own := by
  rw [wholes, List.filterMap_map]
  exact List.filterMap_some

theorem map_wholes {texts : List Writing} (h : ∀ w ∈ texts, w.whole? ≠ none) :
    (wholes texts).map .whole = texts := by
  induction texts with
  | nil => rfl
  | cons w rest ih =>
    rw [List.forall_mem_cons] at h
    cases w with
    | broken points => exact absurd rfl h.1
    | whole s => exact congrArg (.whole s :: ·) (ih h.2)

def points : Writing → List Nat
  | .whole s => s.toList.map Char.toNat
  | .broken points => points

def append (a b : Writing) : Writing :=
  match a, b with
  | .whole s, .whole t => .whole (s ++ t)
  | a, b => .broken (a.points ++ b.points)

/-- The text with a replacement character for each surrogate. -/
def legible : Writing → String
  | .whole s => s
  | .broken points =>
    String.ofList (points.map fun n => if isSurrogate n then '\uFFFD' else Char.ofNat n)

/-- Why code points cannot be encoded: the first run of surrogates is told by its place. -/
def encodingFault (points : List Nat) : String :=
  let start := (points.takeWhile (!isSurrogate ·)).length
  let run := (points.drop start).takeWhile isSurrogate
  let what :=
    if run.length ≤ 1 then
      "character '\\u" ++ String.ofList (Nat.toDigits 16 (run.headD 0)) ++ "' in position "
        ++ Nat.repr start
    else "characters in position " ++ Nat.repr start ++ "-" ++ Nat.repr (start + run.length - 1)
  "'utf-8' codec can't encode " ++ what ++ ": surrogates not allowed"

end Writing

inductive Value where
  | null
  | bool (b : Bool)
  | int (n : Int)
  | float (x : Float)
  | text (s : String)
  /-- Code points among which some are unpaired surrogates. -/
  | broken (points : List Nat)
  /-- A date or a time, by its text. -/
  | moment (shown : String)
  | list (items : List Value)
  | map (members : List (String × Value))
  deriving Repr, Inhabited, BEq

namespace Value

/-- The greatest count of digits of an integer that is read or written. -/
def digitLimit : Nat := 4300

abbrev Members := List (String × Value)

def Members.get? (members : Members) (key : String) : Option Value :=
  members.lookup key

/-- Sets a key: in place where the key exists, otherwise at the end. -/
def Members.set (members : Members) (key : String) (value : Value) : Members :=
  match members with
  | [] => [(key, value)]
  | (k, v) :: rest =>
    if k == key then (k, value) :: rest else (k, v) :: Members.set rest key value

def Members.erase (members : Members) (key : String) : Members :=
  members.filter (·.1 != key)

def Members.keys (members : Members) : List String :=
  members.map (·.1)

/-- Members from pairs in order, a later value of a key taking the place of an earlier one. -/
def Members.ofPairs (pairs : List (String × Value)) : Members :=
  pairs.foldl (fun members (k, v) => Members.set members k v) []

/-! ## The keys of a map -/

namespace Members

theorem get?_cons (first : String) (v : Value) (rest : Members) (key : String) :
    get? ((first, v) :: rest) key = if key = first then some v else rest.get? key := by
  unfold get?
  by_cases h : key = first
  · rw [if_pos h, h, List.lookup_cons_self]
  · rw [if_neg h, List.lookup_cons, beq_eq_false_iff_ne.mpr h]

theorem get?_set (m : Members) (key : String) (v : Value) (k : String) :
    (m.set key v).get? k = if k = key then some v else m.get? k := by
  induction m with
  | nil => rw [set, get?_cons]
  | cons member rest ih =>
    obtain ⟨first, w⟩ := member
    rw [set]
    by_cases hfirst : first = key
    · rw [if_pos (beq_iff_eq.mpr hfirst), get?_cons, get?_cons, hfirst]
      split <;> rfl
    · rw [if_neg (by simpa using hfirst), get?_cons, get?_cons, ih]
      by_cases h : k = first
      · rw [if_pos h, if_pos h, if_neg (h ▸ hfirst)]
      · rw [if_neg h, if_neg h]

theorem keys_set (m : Members) (key : String) (v : Value) :
    (m.set key v).keys = if key ∈ m.keys then m.keys else m.keys ++ [key] := by
  induction m with
  | nil => rfl
  | cons member rest ih =>
    obtain ⟨first, w⟩ := member
    rw [set]
    by_cases hfirst : first = key
    · rw [if_pos (beq_iff_eq.mpr hfirst), if_pos (by simp [keys, hfirst])]
      rfl
    · have hcons : (keys ((first, w) :: set rest key v)) = first :: (set rest key v).keys := rfl
      rw [if_neg (by simpa using hfirst), hcons, ih]
      have hmem : key ∈ keys ((first, w) :: rest) ↔ key ∈ keys rest := by
        simp [keys, Ne.symm hfirst]
      by_cases h : key ∈ keys rest
      · rw [if_pos h, if_pos (hmem.mpr h)]
        rfl
      · rw [if_neg h, if_neg fun hkey => h (hmem.mp hkey)]
        rfl

theorem mem_keys_set {m : Members} {key k : String} {v : Value} :
    k ∈ (m.set key v).keys ↔ k ∈ m.keys ∨ k = key := by
  rw [keys_set]
  split
  · rename_i h
    exact ⟨.inl, fun hk => hk.elim id fun he => he ▸ h⟩
  · simp

theorem nodup_keys_set {m : Members} (h : m.keys.Nodup) (key : String) (v : Value) :
    (m.set key v).keys.Nodup := by
  rw [keys_set]
  split
  · exact h
  · rename_i hkey
    rw [List.nodup_append]
    exact ⟨h, List.nodup_cons.mpr ⟨List.not_mem_nil, List.nodup_nil⟩, fun k hk k' hk' he =>
      hkey (List.mem_singleton.mp hk' ▸ he ▸ hk)⟩

theorem get?_eq_none_iff {m : Members} {key : String} : m.get? key = none ↔ key ∉ m.keys := by
  induction m with
  | nil => simp [get?, keys]
  | cons member rest ih =>
    obtain ⟨first, v⟩ := member
    rw [get?_cons]
    by_cases h : key = first
    · simp [keys, h]
    · rw [if_neg h, ih]
      simp [keys, h]

theorem mem_of_get? {m : Members} {key : String} {v : Value} (h : m.get? key = some v) :
    (key, v) ∈ m := by
  induction m with
  | nil => cases h
  | cons member rest ih =>
    rw [get?_cons] at h
    split at h
    · rename_i hkey
      exact List.mem_cons.mpr (.inl (Prod.ext hkey (Option.some.inj h).symm))
    · exact List.mem_cons_of_mem _ (ih h)

theorem nodup_keys_foldl (pairs : List (String × Value)) {m : Members} (h : m.keys.Nodup) :
    (pairs.foldl (fun members (k, v) => set members k v) m).keys.Nodup := by
  induction pairs generalizing m with
  | nil => exact h
  | cons pair rest ih => exact ih (nodup_keys_set h _ _)

/-- Members that are made from pairs have different keys. -/
theorem nodup_keys_ofPairs (pairs : List (String × Value)) : (ofPairs pairs).keys.Nodup :=
  nodup_keys_foldl pairs List.nodup_nil

theorem mem_foldl {pairs : List (String × Value)} {m : Members} {key : String} {v : Value}
    (h : (pairs.foldl (fun members (k, v) => set members k v) m).get? key = some v) :
    m.get? key = some v ∨ (key, v) ∈ pairs := by
  induction pairs generalizing m with
  | nil => exact .inl h
  | cons pair rest ih =>
    rcases ih h with hset | hmem
    · rw [get?_set] at hset
      split at hset
      · rename_i hkey
        exact .inr (List.mem_cons.mpr (.inl (Prod.ext hkey (Option.some.inj hset).symm)))
      · exact .inl hset
    · exact .inr (List.mem_cons_of_mem _ hmem)

/-- What members made from pairs hold is one of the pairs. -/
theorem mem_of_get?_ofPairs {pairs : List (String × Value)} {key : String} {v : Value}
    (h : (ofPairs pairs).get? key = some v) : (key, v) ∈ pairs :=
  (mem_foldl h).resolve_left nofun

end Members

def Members.part (m : Members) (name : String) : Members :=
  match m.get? name with
  | some (.map members) => members
  | _ => []

/-- Members with different keys, and so are the members of each map in them. -/
structure Members.IsKeyed (m : Members) : Prop where
  keys : m.keys.Nodup
  parts : ∀ name, (m.part name).keys.Nodup

/-! ## Values of kinds -/

def get? (v : Value) (key : String) : Option Value :=
  match v with
  | .map members => Members.get? members key
  | _ => none

def ofText? : Option String → Value
  | some s => .text s
  | none => .null

def ofInt? : Option Int → Value
  | some n => .int n
  | none => .null

def nat (n : Nat) : Value :=
  .int n

def texts (items : List String) : Value :=
  .list (items.map .text)

/-- Whether a value counts as present in a condition: neither null, false, zero nor empty. -/
def isTruthy : Value → Bool
  | .null => false
  | .bool b => b
  | .int n => n != 0
  | .float x => !(x == 0.0)
  | .text s => s != ""
  | .broken points => !points.isEmpty
  | .moment _ => true
  | .list items => !items.isEmpty
  | .map members => !members.isEmpty

def typeName : Value → String
  | .null => "NoneType"
  | .bool _ => "bool"
  | .int _ => "int"
  | .float _ => "float"
  | .text _ => "str"
  | .broken _ => "str"
  | .moment _ => "date"
  | .list _ => "list"
  | .map _ => "dict"

/-- A value with all that is neither a list nor a map changed, and so all keys. -/
def mapLeaves (leaf : Value → Value) (key : String → String) : Value → Value
  | .list items => .list (items.attach.map fun ⟨v, _⟩ => mapLeaves leaf key v)
  | .map members => .map (members.attach.map fun ⟨(k, v), _⟩ => (key k, mapLeaves leaf key v))
  | v => leaf v
termination_by v => sizeOf v
decreasing_by
  · rename_i h
    have := List.sizeOf_lt_of_mem h
    simp only [Value.list.sizeOf_spec]
    omega
  · rename_i h
    have := List.sizeOf_lt_of_mem h
    simp only [Value.map.sizeOf_spec, Prod.mk.sizeOf_spec] at *
    omega

end Value

def Writing.value : Writing → Value
  | .whole s => .text s
  | .broken points => .broken points

/-- Types of texts: those of characters only, and those that a program may hold. -/
class Textual (τ : Type) where
  value : τ → Value
  points : τ → List Nat

instance : Textual String := ⟨.text, fun s => s.toList.map Char.toNat⟩

instance : Textual Writing := ⟨Writing.value, Writing.points⟩

def Textual.value? {τ : Type} [Textual τ] : Option τ → Value
  | some s => Textual.value s
  | none => .null

end CodeIndex
