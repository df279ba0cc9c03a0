import CodeIndex.Yaml.ScalarText

/-!
# YAML tokens

The tokens of a document.  Indentation opens and closes blocks: a block collection opens where an entry
stands further in than the enclosing block, and closes where a line starts further out.  A key is
known as a key only by the colon after it, so each place where a key may start is remembered, and the
key's token is put there once the colon comes.
-/

namespace CodeIndex.Yaml

/-- The name of a tag: a handle, if any, and a suffix. -/
structure TagName where
  handle : Option String
  suffix : String
  deriving Repr, DecidableEq

inductive Token where
  /-- A version of the format, by its first number. -/
  | versionDirective (major : Nat)
  | tagDirective (handle start : String)
  | otherDirective
  | documentStart
  | documentEnd
  | blockSequenceStart
  | blockMappingStart
  | blockEnd
  | flowSequenceStart
  | flowSequenceEnd
  | flowMappingStart
  | flowMappingEnd
  | blockEntry
  | flowEntry
  | key
  | value
  | alias (name : String)
  | anchor (name : String)
  | tag (name : TagName)
  | scalar (plain : Bool) (text : String)
  deriving Repr, DecidableEq

structure KeyPlace where
  /-- The number of tokens before it. -/
  position : Nat
  line : Nat
  column : Nat
  offset : Nat
  /-- Whether the block allows nothing but a key here. -/
  required : Bool

/-- The tokens so far and what is needed to go on. -/
structure Lexing where
  cursor : Cursor
  tokens : Array Token := #[]
  /-- The columns of the open blocks, the innermost first. -/
  blocks : List Nat := []
  /-- Whether a key may start here. -/
  keyAllowed : Bool := true
  /-- The possible key of the innermost flow collection, or of the block. -/
  key : Option KeyPlace := none
  /-- The possible keys of the enclosing flow collections and of the block. -/
  outerKeys : List (Option KeyPlace) := []

namespace Lexing

def inFlow (s : Lexing) : Bool :=
  !s.outerKeys.isEmpty

/-- The first column inside the innermost block. -/
def innerColumn (s : Lexing) : Nat :=
  match s.blocks with
  | [] => 0
  | column :: _ => column + 1

def push (s : Lexing) (t : Token) : Lexing :=
  { s with tokens := s.tokens.push t }

def pushAt (s : Lexing) (t : Token) (c : Cursor) : Lexing :=
  { s with tokens := s.tokens.push t, cursor := c }

/-! ## Possible keys -/

def longestKey : Nat := 1024

/-- Forgets a possible key that is too far away; nothing if a key was required there. -/
def freshKey? (c : Cursor) : Option KeyPlace → Option (Option KeyPlace)
  | none => some none
  | some k =>
    if k.line != c.line || longestKey < c.offset - k.offset then
      if k.required then none else some none
    else some (some k)

def dropStaleKeys? (s : Lexing) : Option Lexing :=
  match freshKey? s.cursor s.key, s.outerKeys.mapM (freshKey? s.cursor) with
  | some key, some outerKeys => some { s with key, outerKeys }
  | _, _ => none

def dropKey? (s : Lexing) : Option Lexing :=
  match s.key with
  | some k => if k.required then none else some { s with key := none }
  | none => some s

def saveKey? (s : Lexing) : Option Lexing :=
  if s.keyAllowed then
    s.dropKey?.map fun s =>
      let place : KeyPlace :=
        { position := s.tokens.size, line := s.cursor.line, column := s.cursor.column
          offset := s.cursor.offset
          required := !s.inFlow && s.blocks.head? == some s.cursor.column }
      { s with key := some place }
  else some s

/-! ## Indentation -/

/-- Closes the blocks further in than a column; `none` closes all. -/
def closeTo (s : Lexing) (column : Option Nat) : Lexing :=
  if s.inFlow then s
  else
    let inner := match column with
      | some n => s.blocks.takeWhile (n < ·)
      | none => s.blocks
    { s with
      tokens := s.tokens ++ Array.replicate inner.length .blockEnd
      blocks := s.blocks.drop inner.length }

/-- Opens a block at a column, if that is further in than the innermost one; its token goes to a
position. -/
def openBlock (s : Lexing) (column position : Nat) (t : Token) : Lexing :=
  if s.innerColumn ≤ column then
    { s with blocks := column :: s.blocks, tokens := s.tokens.insertIdxIfInBounds position t }
  else s

/-! ## Single tokens -/

def single (s : Lexing) (t : Token) : Lexing :=
  s.pushAt t s.cursor.next

/-- The end of everything that is open before a document boundary or directive. -/
def endDocument? (s : Lexing) : Option Lexing :=
  (s.closeTo none).dropKey?.map fun s => { s with keyAllowed := false }

def openFlow? (s : Lexing) (t : Token) : Option Lexing :=
  s.saveKey?.map fun s =>
    { s.single t with keyAllowed := true, key := none, outerKeys := s.key :: s.outerKeys }

/-- The end of a flow collection; nothing if none is open. -/
def closeFlow? (s : Lexing) (t : Token) : Option Lexing :=
  match s.dropKey?, s.outerKeys with
  | some s, key :: outerKeys => some { s.single t with keyAllowed := false, key, outerKeys }
  | _, _ => none

def flowEntry? (s : Lexing) : Option Lexing :=
  s.dropKey?.map fun s => { s.single .flowEntry with keyAllowed := true }

def blockEntry? (s : Lexing) : Option Lexing :=
  if s.inFlow || !s.keyAllowed then none
  else
    (s.openBlock s.cursor.column s.tokens.size .blockSequenceStart).dropKey?.map fun s =>
      { s.single .blockEntry with keyAllowed := true }

def explicitKey? (s : Lexing) : Option Lexing :=
  if !s.inFlow && !s.keyAllowed then none
  else
    let s := if s.inFlow then s
      else s.openBlock s.cursor.column s.tokens.size .blockMappingStart
    s.dropKey?.map fun s => { s.single .key with keyAllowed := !s.inFlow }

def value? (s : Lexing) : Option Lexing :=
  match s.key with
  | some k =>
    let s := { s with key := none, tokens := s.tokens.insertIdxIfInBounds k.position .key }
    let s := if s.inFlow then s else s.openBlock k.column k.position .blockMappingStart
    some { s.single .value with keyAllowed := false }
  | none =>
    if s.inFlow then some { s.single .value with keyAllowed := false }
    else if !s.keyAllowed then none
    else
      let s := s.openBlock s.cursor.column s.tokens.size .blockMappingStart
      some { s.single .value with keyAllowed := true }

/-! ## Names -/

def isNameChar (c : Char) : Bool :=
  Text.isAsciiLetter c || Text.isAsciiDigit c || c == '-' || c == '_'

def endsName (c : Option Char) : Bool :=
  endsWord c || c.any ['?', ':', ',', ']', '}', '%', '@', '\x60'].contains

def name? (c : Cursor) : Option (String × Cursor) :=
  let (name, c) := c.next.span isNameChar
  if name.isEmpty || !endsName c.head? then none else some (String.ofList name, c)

def isUriChar (c : Char) : Bool :=
  isNameChar c || [';', '/', '?', ':', '@', '&', '=', '+', '$', ',', '.', '!', '~', '*', '\x27', '(', ')',
    '[', ']'].contains c

def uri? (c : Cursor) : Option (String × Cursor) :=
  let (suffix, c) := c.span isUriChar
  if suffix.isEmpty then none else some (String.ofList suffix, c)

/-- The handle of a tag: one sign, or a name between two. -/
def handle (c : Cursor) : String × Cursor :=
  let (name, after) := c.next.span isNameChar
  if after.head? == some '!' then (String.ofList ('!' :: name ++ ['!']), after.next)
  else ("!", c.next)

def tagName? (c : Cursor) : Option (TagName × Cursor) :=
  let result : Option (TagName × Cursor) := match c.peek 1 with
    | some '<' =>
      match uri? (c.skip 2) with
      | some (suffix, c) => if c.head? == some '>' then some (⟨none, suffix⟩, c.next) else none
      | none => none
    | x =>
      if endsWord x then some (⟨none, "!"⟩, c.next)
      else
        let (handle, after) := handle c
        (uri? after).map fun (suffix, c) => (⟨some handle, suffix⟩, c)
  match result with
  | some (name, c) => if endsField c.head? then some (name, c) else none
  | none => none

def directive? (c : Cursor) : Option (Token × Cursor) :=
  let (name, c) := c.next.span isNameChar
  if name.isEmpty || !endsField c.head? then none
  else
    let c := c.skipWhile (· == ' ')
    let result := match String.ofList name with
      | "YAML" =>
        let (major, c) := c.span Text.isAsciiDigit
        let (minor, c') := c.next.span Text.isAsciiDigit
        if major.isEmpty || minor.isEmpty || c.head? != some '.' || !endsField c'.head? then none
        else some (Token.versionDirective (Decimal.natOfDigits major), c')
      | "TAG" =>
        let (handle, c) := handle c
        if c.head? != some ' ' then none
        else (uri? (c.skipWhile (· == ' '))).map fun (start, c) => (Token.tagDirective handle start, c)
      | _ => some (Token.otherDirective, c.skipWhile (!isBreak ·))
    match result with
    | none => none
    | some (t, c) => c.passComment?.map fun c => (t, c)

/-! ## The next token -/

def passBlank (s : Lexing) : Nat → Lexing
  | 0 => s
  | fuel + 1 =>
    let c := s.cursor
    let c := if c.offset == 0 && c.head? == some '\ufeff' then c.next else c
    let c := c.skipWhile (· == ' ')
    let c := if c.head? == some '#' then c.skipWhile (!isBreak ·) else c
    match c.passBreak with
    | ([], _) => { s with cursor := c }
    | (_, c) => passBlank { s with cursor := c, keyAllowed := s.keyAllowed || !s.inFlow } fuel

/-- Characters with which no plain scalar starts, unless some of them stand before a word. -/
def indicators : List Char :=
  ['-', '?', ':', ',', '[', ']', '{', '}', '#', '&', '*', '!', '|', '>', '\x27', '\x22', '%', '@',
    '\x60', '\t']

def startsPlain (s : Lexing) (x : Char) : Bool :=
  !indicators.contains x ||
    (!endsWord (s.cursor.peek 1) && (x == '-' || (!s.inFlow && (x == '?' || x == ':'))))

/-- A token that may be a key by itself, with the place after it. -/
def keyLike (s : Lexing) (result : Except Refusal (Token × Cursor)) : Except Refusal Lexing := do
  let s ← orMalformed s.saveKey?
  let (t, c) ← result
  return { s.pushAt t c with keyAllowed := false }

def plain? (s : Lexing) : Option Lexing :=
  s.saveKey?.map fun s =>
    let (text, broke, c) := plainScalar s.inFlow s.innerColumn s.cursor
    { s.pushAt (.scalar true text) c with keyAllowed := broke }

def block? (s : Lexing) : Option Lexing :=
  match s.dropKey?, blockScalar s.innerColumn s.cursor with
  | some s, some (text, c) => some { s.pushAt (.scalar false text) c with keyAllowed := true }
  | _, _ => none

def token (s : Lexing) (x : Char) : Except Refusal Lexing :=
  let c := s.cursor
  let spaced := endsWord (c.peek 1)
  if x == '%' && c.column == 0 then
    match s.endDocument?, directive? c with
    | some s, some (t, c) => .ok (s.pushAt t c)
    | _, _ => .error .malformed
  else if x == '-' && c.column == 0 && c.atMark '-' then
    orMalformed (s.endDocument?.map fun s => s.pushAt .documentStart (c.skip 3))
  else if x == '.' && c.column == 0 && c.atMark '.' then
    orMalformed (s.endDocument?.map fun s => s.pushAt .documentEnd (c.skip 3))
  else if x == '[' then orMalformed (s.openFlow? .flowSequenceStart)
  else if x == '{' then orMalformed (s.openFlow? .flowMappingStart)
  else if x == ']' then orMalformed (s.closeFlow? .flowSequenceEnd)
  else if x == '}' then orMalformed (s.closeFlow? .flowMappingEnd)
  else if x == ',' then orMalformed s.flowEntry?
  else if x == '-' && spaced then orMalformed s.blockEntry?
  else if x == '?' && (s.inFlow || spaced) then orMalformed s.explicitKey?
  else if x == ':' && (s.inFlow || spaced) then orMalformed s.value?
  else if x == '*' then
    s.keyLike (orMalformed ((name? c).map fun (name, c) => (.alias name, c)))
  else if x == '&' then
    s.keyLike (orMalformed ((name? c).map fun (name, c) => (.anchor name, c)))
  else if x == '!' then
    s.keyLike (orMalformed ((tagName? c).map fun (name, c) => (.tag name, c)))
  else if (x == '|' || x == '>') && !s.inFlow then orMalformed s.block?
  else if x == '\x27' || x == '\x22' then
    s.keyLike ((quotedScalar c).map fun (text, c) => (.scalar false text, c))
  else if s.startsPlain x then orMalformed s.plain?
  else .error .malformed

def run (s : Lexing) : Nat → Except Refusal (Array Token)
  | 0 => .error .malformed
  | fuel + 1 => do
    let s ← orMalformed (s.passBlank (s.cursor.rest.length + 1)).dropStaleKeys?
    let s := s.closeTo (some s.cursor.column)
    match s.cursor.head? with
    | none => orMalformed (s.endDocument?.map (·.tokens))
    | some x => (← s.token x).run fuel

end Lexing

/-- The tokens of a text, if it has only allowed characters and well-formed tokens. -/
def tokensOf (s : String) : Except Refusal (List Token) :=
  let cs := s.toList
  if cs.all isAllowed then (Lexing.run { cursor := { rest := cs } } (cs.length + 2)).map Array.toList
  else .error .malformed

end CodeIndex.Yaml
