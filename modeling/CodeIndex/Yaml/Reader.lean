import CodeIndex.Yaml.Document

/-!
# Readers of YAML

Whoever reads YAML gives maps with different keys.  The reader of documents does: a scalar never stands
for a map, and a mapping never has a key twice, as of two values at one key the later counts.
-/

namespace CodeIndex.Yaml

variable {m : Value.Members}

/-! ## Scalars -/

theorem resolve_ne_map (s : String) (m : Value.Members) : resolve s ≠ .value (.map m) := by
  unfold resolve Reading.ofResult
  grind

namespace Document

theorem ofReading_eq_ok {r : Reading} {v : Value} (h : ofReading r = .ok v) : r = .value v := by
  cases r <;> cases h
  rfl

theorem tagged_ne_map (tag text : String) (m : Value.Members) :
    tagged tag text ≠ .ok (.value (.map m)) := by
  unfold tagged Reading.ofResult
  grind

theorem readingOf_ne_map (tag : Option String) (plain : Bool) (text : String) (m : Value.Members) :
    readingOf tag plain text ≠ .ok (.value (.map m)) := by
  have hresolve := resolve_ne_map text m
  unfold readingOf
  split
  · split
    · simpa using hresolve
    · simp
  · simpa using hresolve
  · exact tagged_ne_map _ text m

/-! ## Mappings -/

theorem exists_of_mapM {α β ε : Type} {f : α → Except ε β} {items : List α} {results : List β}
    (h : items.mapM f = .ok results) {b : β} (hb : b ∈ results) : ∃ a ∈ items, f a = .ok b := by
  induction items generalizing results with
  | nil =>
    cases h
    cases hb
  | cons a rest ih =>
    rw [List.mapM_cons] at h
    cases ha : f a with
    | error e => rw [ha] at h; cases h
    | ok c =>
      rw [ha] at h
      cases hrest : rest.mapM f with
      | error e => rw [hrest] at h; cases h
      | ok tail =>
        rw [hrest] at h
        cases h
        rcases List.mem_cons.mp hb with rfl | hb
        · exact ⟨a, List.mem_cons_self, ha⟩
        · obtain ⟨a', hmem, hf⟩ := ih hrest hb
          exact ⟨a', List.mem_cons_of_mem _ hmem, hf⟩

/-- What a node that denotes a map denotes: the members of the mapping that it is. -/
theorem map_of_ofNode {n : Node} {fuel : Nat} (h : ofNode n fuel = .ok (.map m)) :
    ∃ pairs fuel' ps, members pairs fuel' = .ok ps ∧
      m = .ofPairs (ps.map fun (k, v) => (k.shown, v)) := by
  cases fuel with
  | zero => cases h
  | succ fuel =>
    cases n with
    | scalar tag plain text =>
      simp only [ofNode] at h
      cases hr : readingOf tag plain text with
      | error e => rw [hr] at h; cases h
      | ok r =>
        rw [hr] at h
        obtain rfl := ofReading_eq_ok h
        exact absurd hr (readingOf_ne_map tag plain text m)
    | sequence tag items =>
      simp only [ofNode] at h
      split at h
      · cases hitems : items.mapM fun item => ofNode item fuel with
        | error e => rw [hitems] at h; cases h
        | ok values => rw [hitems] at h; cases h
      · cases h
    | mapping tag pairs =>
      simp only [ofNode] at h
      split at h
      · cases hps : members pairs fuel with
        | error e => rw [hps] at h; cases h
        | ok ps =>
          rw [hps] at h
          cases h
          exact ⟨pairs, fuel, ps, hps, rfl⟩
      · cases h

theorem exists_ofNode_of_members {pairs : List (Node × Node)} {fuel : Nat} {ps : List (Value × Value)}
    (h : members pairs fuel = .ok ps) {p : Value × Value} (hp : p ∈ ps) :
    ∃ n fuel', ofNode n fuel' = .ok p.2 := by
  cases fuel with
  | zero => cases h
  | succ fuel =>
    rw [members] at h
    split at h
    · cases h
    · obtain ⟨⟨k, v⟩, -, hkv⟩ := exists_of_mapM h hp
      dsimp only at hkv
      cases hk : keyValue k with
      | error e => rw [hk] at hkv; cases hkv
      | ok key =>
        rw [hk] at hkv
        cases hv : ofNode v fuel with
        | error e => rw [hv] at hkv; cases hkv
        | ok value =>
          rw [hv] at hkv
          cases hkv
          exact ⟨v, fuel, hv⟩

theorem nodup_keys_of_ofNode {n : Node} {fuel : Nat} (h : ofNode n fuel = .ok (.map m)) :
    m.keys.Nodup := by
  obtain ⟨-, -, ps, -, rfl⟩ := map_of_ofNode h
  exact Value.Members.nodup_keys_ofPairs _

/-- A map that a node denotes has different keys, and so have the maps in it. -/
theorem isKeyed_of_ofNode {n : Node} {fuel : Nat} (h : ofNode n fuel = .ok (.map m)) : m.IsKeyed where
  keys := nodup_keys_of_ofNode h
  parts name := by
    unfold Value.Members.part
    split
    · rename_i inner hget
      obtain ⟨pairs, fuel', ps, hps, rfl⟩ := map_of_ofNode h
      obtain ⟨⟨k, v⟩, hmem, heq⟩ := List.mem_map.mp (Value.Members.mem_of_get?_ofPairs hget)
      cases heq
      obtain ⟨n', fuel'', hn⟩ := exists_ofNode_of_members hps hmem
      exact nodup_keys_of_ofNode hn
    · exact List.nodup_nil

/-- The map that a text holds has different keys, and so have the maps in it. -/
theorem isKeyed_of_ofText {s : String} {d : Document} (h : ofText s = .ok d) (hm : d.value = .map m) :
    m.IsKeyed := by
  unfold ofText at h
  dsimp only at h
  split at h
  · cases h
  · cases h
    cases hm
  · rename_i n _
    cases hn : ofNode n (2 * s.length + 8) with
    | error e => rw [hn] at h; cases h
    | ok v =>
      rw [hn] at h
      have hv : d.value = v := by
        cases n with
        | mapping tag pairs =>
          change (members pairs _).bind _ = _ at h
          cases hps : members pairs (2 * s.length + 8) with
          | error e => rw [hps] at h; cases h
          | ok ps => rw [hps] at h; cases h; rfl
        | _ => cases h; rfl
      rw [← hv, hm] at hn
      exact isKeyed_of_ofNode hn

end Document

/-- A reader of texts in YAML.  It says of a text that is not well-formed that it is not; whatever else
stops it is its own affair.  The maps that it gives have different keys, and so have the maps in them. -/
structure Reader where
  read : String → Except Refusal Document
  isKeyed : ∀ {s : String} {d : Document} {m : Value.Members},
    read s = .ok d → d.value = .map m → m.IsKeyed

def Reader.standard : Reader where
  read := Document.ofText
  isKeyed := Document.isKeyed_of_ofText

end CodeIndex.Yaml
