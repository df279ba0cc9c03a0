import CodeIndex.Yaml.Token

/-!
# YAML nodes

The tree of a document.  Tags are written out in full, an alias stands for a copy of the node that its
anchor names, and a place where a node may be left out holds the empty scalar.  The reader goes no deeper
than it is told to.
-/

namespace CodeIndex.Yaml

inductive Node where
  | scalar (tag : Option String) (plain : Bool) (text : String)
  | sequence (tag : Option String) (items : List Node)
  | mapping (tag : Option String) (pairs : List (Node × Node))
  deriving Inhabited

namespace Node

def empty : Node :=
  .scalar none true ""

/-- The rest of a document's tokens, the nodes named so far, and the meaning of tag handles. -/
structure Source where
  rest : List Token
  /-- How many more collections may be opened inside one another. -/
  depth : Nat
  anchors : List (String × Node) := []
  handles : List (String × String) := [("!", "!"), ("!!", "tag:yaml.org,2002:")]

def Source.starts (s : Source) (p : Token → Bool) : Bool :=
  s.rest.head?.any p

def Source.pass (s : Source) : Source :=
  { s with rest := s.rest.tail }

/-- What is inside a collection, which is read up to its end. -/
def Source.inside {α : Type} (s : Source) (read : Source → Except Refusal (α × Source)) :
    Except Refusal (α × Source) :=
  match s.depth with
  | 0 => .error (.stopped .nestedTooDeep)
  | depth + 1 =>
    (read { s with depth }).map fun (found, after) => (found, { after with depth := s.depth })

/-- A tag in full; nothing if its handle has no meaning. -/
def Source.fullTag? (s : Source) (name : TagName) : Option String :=
  match name.handle with
  | none => some name.suffix
  | some handle => (s.handles.lookup handle).map (· ++ name.suffix)

/-- The anchor and the tag in front of a node, in either order. -/
structure Properties where
  anchor : Option String := none
  tag : Option String := none

def Source.properties? (s : Source) : Option (Properties × Source) :=
  match s.rest with
  | .anchor a :: .tag t :: rest => (s.fullTag? t).map fun t => (⟨some a, some t⟩, { s with rest })
  | .tag t :: .anchor a :: rest => (s.fullTag? t).map fun t => (⟨some a, some t⟩, { s with rest })
  | .anchor a :: rest => some (⟨some a, none⟩, { s with rest })
  | .tag t :: rest => (s.fullTag? t).map fun t => (⟨none, some t⟩, { s with rest })
  | _ => some ({}, s)

/-- Gives a node its name; nothing if the name is taken. -/
def Source.named? (s : Source) (anchor : Option String) (n : Node) : Option (Node × Source) :=
  match anchor with
  | none => some (n, s)
  | some a =>
    if (s.anchors.lookup a).isSome then none else some (n, { s with anchors := (a, n) :: s.anchors })

/-- Tokens before which an item of a sequence inside a mapping is left out. -/
def endsIndentlessItem : Token → Bool
  | .blockEntry | .key | .value | .blockEnd => true
  | _ => false

/-- Tokens before which a key or a value of a block mapping is left out. -/
def endsBlockPart : Token → Bool
  | .key | .value | .blockEnd => true
  | _ => false

/-- Tokens before which a key of a flow collection is left out. -/
def endsFlowKey (close : Token) (t : Token) : Bool :=
  t == .value || t == .flowEntry || t == close

/-- Tokens before which a value of a flow collection is left out. -/
def endsFlowValue (close : Token) (t : Token) : Bool :=
  t == .flowEntry || t == close

/-- Where a node stands: which collections may start there. -/
inductive Position where
  | flow
  | block
  /-- The key or value of a block mapping, where a sequence need not be indented. -/
  | mappingPart
  deriving DecidableEq

mutual

def read (position : Position) (s : Source) : Nat → Except Refusal (Node × Source)
  | 0 => .error .malformed
  | fuel + 1 =>
    match s.rest with
    | .alias name :: rest => (orMalformed (s.anchors.lookup name)).map fun n => (n, { s with rest })
    | _ => do
      let (p, s) ← orMalformed s.properties?
      let bare := p.anchor.isNone && p.tag.isNone
      let (n, s) ← match s.rest with
        | .scalar plain text :: rest => .ok (.scalar p.tag plain text, { s with rest })
        | .blockEntry :: _ =>
          if position == .mappingPart then
            (s.inside fun s => indentlessItems s fuel).map fun (items, s) => (.sequence p.tag items, s)
          else if bare then .error .malformed
          else .ok (.scalar p.tag true "", s)
        | .flowSequenceStart :: rest =>
          (Source.inside { s with rest } fun s => flowItems true s fuel).map fun (items, s) =>
            (.sequence p.tag items, s)
        | .flowMappingStart :: rest =>
          (Source.inside { s with rest } fun s => flowPairs true s fuel).map fun (pairs, s) =>
            (.mapping p.tag pairs, s)
        | .blockSequenceStart :: rest =>
          if position == .flow then .error .malformed
          else
            (Source.inside { s with rest } fun s => blockItems s fuel).map fun (items, s) =>
              (.sequence p.tag items, s)
        | .blockMappingStart :: rest =>
          if position == .flow then .error .malformed
          else
            (Source.inside { s with rest } fun s => blockPairs s fuel).map fun (pairs, s) =>
              (.mapping p.tag pairs, s)
        | _ => if bare then .error .malformed else .ok (.scalar p.tag true "", s)
      orMalformed (s.named? p.anchor n)

/-- A node, or the empty scalar before tokens of a kind. -/
def readUnless (ends : Token → Bool) (position : Position) (s : Source) :
    Nat → Except Refusal (Node × Source)
  | 0 => .error .malformed
  | fuel + 1 => if s.starts ends then .ok (empty, s) else read position s fuel

/-- The value after a key, if a colon follows. -/
def readValue (ends : Token → Bool) (position : Position) (s : Source) :
    Nat → Except Refusal (Node × Source)
  | 0 => .error .malformed
  | fuel + 1 =>
    if s.starts (· == .value) then readUnless ends position s.pass fuel else .ok (empty, s)

def blockItems (s : Source) : Nat → Except Refusal (List Node × Source)
  | 0 => .error .malformed
  | fuel + 1 =>
    match s.rest with
    | .blockEnd :: _ => .ok ([], s.pass)
    | .blockEntry :: _ => do
      let (n, s) ← readUnless (fun t => t == .blockEntry || t == .blockEnd) .block s.pass fuel
      let (items, s) ← blockItems s fuel
      return (n :: items, s)
    | _ => .error .malformed

/-- The items of a sequence that is not indented. -/
def indentlessItems (s : Source) : Nat → Except Refusal (List Node × Source)
  | 0 => .error .malformed
  | fuel + 1 =>
    match s.rest with
    | .blockEntry :: _ => do
      let (n, s) ← readUnless endsIndentlessItem .block s.pass fuel
      let (items, s) ← indentlessItems s fuel
      return (n :: items, s)
    | _ => .ok ([], s)

def blockPairs (s : Source) : Nat → Except Refusal (List (Node × Node) × Source)
  | 0 => .error .malformed
  | fuel + 1 =>
    match s.rest with
    | .blockEnd :: _ => .ok ([], s.pass)
    | .key :: _ => do
      let (k, s) ← readUnless endsBlockPart .mappingPart s.pass fuel
      let (v, s) ← readValue endsBlockPart .mappingPart s fuel
      let (pairs, s) ← blockPairs s fuel
      return ((k, v) :: pairs, s)
    | _ => .error .malformed

def flowPair (close : Token) (s : Source) : Nat → Except Refusal ((Node × Node) × Source)
  | 0 => .error .malformed
  | fuel + 1 => do
    let (k, s) ← readUnless (endsFlowKey close) .flow s.pass fuel
    let (v, s) ← readValue (endsFlowValue close) .flow s fuel
    return ((k, v), s)

/-- The items of a flow sequence; a key makes its item a mapping with one pair. -/
def flowItems (first : Bool) (s : Source) : Nat → Except Refusal (List Node × Source)
  | 0 => .error .malformed
  | fuel + 1 => do
    if s.starts (· == .flowSequenceEnd) then return ([], s.pass)
    let s ← if first then .ok s else if s.starts (· == .flowEntry) then .ok s.pass else .error .malformed
    if s.starts (· == .flowSequenceEnd) then return ([], s.pass)
    let (n, s) ←
      if s.starts (· == .key) then
        (s.inside fun s => flowPair .flowSequenceEnd s fuel).map fun (pair, s) => (.mapping none [pair], s)
      else read .flow s fuel
    let (items, s) ← flowItems false s fuel
    return (n :: items, s)

/-- The pairs of a flow mapping; a node alone is a key without a value. -/
def flowPairs (first : Bool) (s : Source) : Nat → Except Refusal (List (Node × Node) × Source)
  | 0 => .error .malformed
  | fuel + 1 => do
    if s.starts (· == .flowMappingEnd) then return ([], s.pass)
    let s ← if first then .ok s else if s.starts (· == .flowEntry) then .ok s.pass else .error .malformed
    if s.starts (· == .flowMappingEnd) then return ([], s.pass)
    let (pair, s) ←
      if s.starts (· == .key) then flowPair .flowMappingEnd s fuel
      else (read .flow s fuel).map fun (k, s) => ((k, empty), s)
    let (pairs, s) ← flowPairs false s fuel
    return (pair :: pairs, s)

end

/-! ## Documents -/

def startsDocument : Token → Bool
  | .versionDirective _ | .tagDirective .. | .otherDirective | .documentStart => true
  | _ => false

/-- Passes the directives before a document; nothing if one is wrong or given twice. -/
def directives? (depth : Nat) (versioned : Bool) (given handles : List (String × String)) :
    List Token → Option Source
  | .versionDirective major :: rest =>
    if versioned || major != 1 then none else directives? depth true given handles rest
  | .tagDirective handle start :: rest =>
    if (given.lookup handle).isSome then none
    else directives? depth versioned ((handle, start) :: given) handles rest
  | .otherDirective :: rest => directives? depth versioned given handles rest
  | .documentStart :: rest => some { rest, depth, handles := given ++ handles }
  | _ => none

/-- What a document without text or the single document of a text is; `none` for no document. -/
def ofTokens (depth : Nat) (tokens : List Token) : Except Refusal (Option Node) :=
  let fuel := 7 * tokens.length + 9
  let ended := fun (s : Source) => s.rest.all (· == .documentEnd)
  match tokens with
  | [] => .ok none
  | t :: _ => do
    let start : Source := { rest := tokens, depth }
    let s ←
      if startsDocument t then orMalformed (directives? depth false [] start.handles tokens) else .ok start
    let bare := fun t => startsDocument t || t == .documentEnd
    if startsDocument t && (s.rest.isEmpty || s.starts bare) then
      if ended s then return some empty else throw .malformed
    let (n, s) ← read .block s fuel
    if ended s then return some n else throw .malformed

/-- The single document of a text; `none` if the text has none. -/
def ofText (depth : Nat) (s : String) : Except Refusal (Option Node) :=
  (tokensOf s).bind (ofTokens depth)

end Node

end CodeIndex.Yaml
