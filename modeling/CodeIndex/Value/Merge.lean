import CodeIndex.Value.Basic

/-!
# Merging maps

One map laid over another: a key of both keeps its place and takes the value of the upper map, except
that two maps at a key are merged in turn.  Keys of the upper map alone come last.
-/

namespace CodeIndex.Value

mutual

/-- Lays a value over another: maps are merged, and anything else gives way. -/
def mergedValue (lower upper : Value) : Value :=
  match upper with
  | .map overlay =>
    match lower with
    | .map base => .map (merged base overlay)
    | _ => .map overlay
  | v => v

def merged (base : Members) : List (String × Value) → Members
  | [] => base
  | (k, v) :: rest =>
    let v := match base.get? k with
      | some lower => mergedValue lower v
      | none => v
    merged (base.set k v) rest

end

end CodeIndex.Value
