import CodeIndex.Value.Shown
import CodeIndex.Yaml.Node

/-!
# YAML documents as values

What the tree of a document denotes.  A merge key takes the pairs of other mappings in front of a
mapping's own, so that the own ones win.  Keys are known by their text; a document says whether all
keys at its top are texts to begin with.
-/

namespace CodeIndex.Yaml

structure Document where
  value : Value := .null
  /-- Whether every key at the top is a text. -/
  hasTextKeys : Bool := true

namespace Document

def standardTag (name : String) : String :=
  "tag:yaml.org,2002:" ++ name

def ofReading : Reading → Except Refusal Value
  | .value v => .ok v
  | .merge => .error .malformed
  | .default => .error .malformed
  | .stopped m => .error (.stopped m)

def tagged (tag text : String) : Except Refusal Reading :=
  let cs := text.toList
  if tag == standardTag "str" then .ok (.value (.text text))
  else if tag == standardTag "null" then .ok (.value .null)
  else if tag == standardTag "bool" then
    let word := String.ofList (cs.map Char.toLower)
    match truthWords.lookup word with
    | some b => .ok (.value (.bool b))
    | none => .ok (.stopped (.raised "KeyError" (Text.quoted word)))
  else if tag == standardTag "int" then .ok (.ofResult .int (toInt cs))
  else if tag == standardTag "float" then .ok (.ofResult .float (toFloat cs))
  else if tag == standardTag "timestamp" then
    match moment? cs with
    | some result => .ok (.ofResult .moment result)
    | none =>
      .ok (.stopped (.raised "AttributeError" "'NoneType' object has no attribute 'groupdict'"))
  else .error .malformed

def readingOf (tag : Option String) (plain : Bool) (text : String) : Except Refusal Reading :=
  match tag with
  | none => .ok (if plain then resolve text else .value (.text text))
  | some "!" => .ok (resolve text)
  | some tag => tagged tag text

/-- Whether a collection's tag, if any, names what the collection is. -/
def fits (tag : Option String) (name : String) : Bool :=
  match tag with
  | none => true
  | some tag => tag == "!" || tag == standardTag name

def isMergeKey : Node → Bool
  | .scalar tag plain text => text == "<<" && ((tag.isNone && plain) || tag == some "!")
  | _ => false

mutual

/-- The pairs of a mapping with those that its merge keys bring in front. -/
def flatPairs (pairs : List (Node × Node)) : Nat → Option (List (Node × Node))
  | 0 => none
  | fuel + 1 =>
    let own := pairs.filter fun (k, _) => !isMergeKey k
    let merged := (pairs.filter fun (k, _) => isMergeKey k).mapM fun (_, v) => mergedPairs v fuel
    merged.map fun merged => merged.flatten ++ own

/-- The pairs that a merge key's value brings in: of several mappings the first wins. -/
def mergedPairs (n : Node) : Nat → Option (List (Node × Node))
  | 0 => none
  | fuel + 1 =>
    match n with
    | .mapping _ pairs => flatPairs pairs fuel
    | .sequence _ items =>
      (items.reverse.mapM fun (item : Node) =>
        match item with
        | .mapping _ pairs => flatPairs pairs fuel
        | _ => none).map List.flatten
    | .scalar .. => none

end

/-- The value of a key: a key is a scalar. -/
def keyValue : Node → Except Refusal Value
  | .scalar tag plain text =>
    match readingOf tag plain text with
    | .ok .default => .ok (.text text)
    | .ok r => ofReading r
    | .error e => .error e
  | _ => .error .malformed

mutual

def ofNode (n : Node) : Nat → Except Refusal Value
  | 0 => .error .malformed
  | fuel + 1 =>
    match n with
    | .scalar tag plain text => (readingOf tag plain text).bind ofReading
    | .sequence tag items =>
      if fits tag "seq" then (items.mapM fun item => ofNode item fuel).map .list else .error .malformed
    | .mapping tag pairs =>
      if fits tag "map" then
        (members pairs fuel).map fun members =>
          .map (Value.Members.ofPairs (members.map fun (k, v) => (k.shown, v)))
      else .error .malformed

def members (pairs : List (Node × Node)) : Nat → Except Refusal (List (Value × Value))
  | 0 => .error .malformed
  | fuel + 1 =>
    match flatPairs pairs (fuel + 1) with
    | none => .error .malformed
    | some pairs =>
      pairs.mapM fun (k, v) => do
        let k ← keyValue k
        let v ← ofNode v fuel
        return (k, v)

end

def isText : Value → Bool
  | .text _ => true
  | _ => false

/-- How many collections may be nested, each taking two calls of the reader. -/
def nestingLimit : Nat := 480

def ofText (s : String) : Except Refusal Document :=
  let fuel := 2 * s.length + 8
  match Node.ofText nestingLimit s with
  | .error e => .error e
  | .ok none => .ok {}
  | .ok (some n) => do
    let value ← ofNode n fuel
    match n with
    | .mapping _ pairs =>
      let members ← members pairs fuel
      return { value, hasTextKeys := members.all fun (k, _) => isText k }
    | _ => return { value }

end Document

end CodeIndex.Yaml
