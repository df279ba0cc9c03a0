import CodeIndex.Decimal.Read
import CodeIndex.Yaml.Cursor
import CodeIndex.Yaml.Scalar

/-!
# The text of YAML scalars

How the text of a scalar is gathered from the document: quoted scalars with their escapes, plain
scalars, and block scalars.  A single line end inside a scalar reads as a space, and of several the
first is dropped.
-/

namespace CodeIndex.Yaml

/-- What one line end and the blank lines after it stand for. -/
def foldBreak (first : List Char) (more : List Char) : List Char :=
  (if first != ['\n'] then first else if more.isEmpty then [' '] else []) ++ more

/-! ## Quoted scalars -/

def escapes : List (Char × Char) :=
  [('0', '\x00'), ('a', '\x07'), ('b', '\x08'), ('t', '\t'), ('\t', '\t'), ('n', '\n'), ('v', '\x0b'),
   ('f', '\x0c'), ('r', '\r'), ('e', '\x1b'), (' ', ' '), ('\x22', '\x22'), ('\\', '\\'), ('/', '/'),
   ('N', '\x85'), ('_', '\xa0'), ('L', '\u2028'), ('P', '\u2029')]

def escapeWidth? : Char → Option Nat
  | 'x' => some 2
  | 'u' => some 4
  | 'U' => some 8
  | _ => none

def quotedBreaks (c : Cursor) : Nat → Option (List Char × Cursor)
  | 0 => none
  | fuel + 1 =>
    if c.atBoundary then none
    else
      let c := c.skipWhile (fun x => x == ' ' || x == '\t')
      match c.passBreak with
      | ([], _) => some ([], c)
      | (line, after) => (quotedBreaks after fuel).map fun (more, c) => (line ++ more, c)

/-- What the number of an escape stands for.  A surrogate is no character and is replaced. -/
def numbered (n : Nat) : Except Refusal Char :=
  if n.isValidChar then .ok (Char.ofNat n)
  else if isSurrogate n then .ok '\uFFFD'
  else if n < Nat.pow 2 31 then .error (.stopped (.wrongValue "chr() arg not in range(0x110000)"))
  else .error (.stopped (.beyondRange "signed integer is greater than maximum"))

def escaped (c : Cursor) : Except Refusal (List Char × Cursor) := do
  let x ← orMalformed c.head?
  match escapes.lookup x with
  | some y => return ([y], c.next)
  | none =>
    match escapeWidth? x with
    | some width =>
      let digits := c.next.rest.take width
      if digits.length == width && digits.all isHexDigit then
        return ([← numbered (natOfBase 16 digits)], c.next.skip width)
      else .error .malformed
    | none =>
      if isBreak x then orMalformed (quotedBreaks c.passBreak.2 (c.rest.length + 1))
      else .error .malformed

def quotedText (double : Bool) (c : Cursor) : Nat → Except Refusal (List Char × Cursor)
  | 0 => .error .malformed
  | fuel + 1 =>
    let push := fun (text : List Char) (c : Cursor) =>
      (quotedText double c fuel).map fun (more, c) => (text ++ more, c)
    match c.rest with
    | [] => .error .malformed
    | x :: rest =>
      if x == ' ' || x == '\t' || isBreak x then
        let (blanks, after) := c.span (fun x => x == ' ' || x == '\t')
        match after.passBreak with
        | ([], _) => if after.rest.isEmpty then .error .malformed else push blanks after
        | (line, below) =>
          match quotedBreaks below (below.rest.length + 1) with
          | none => .error .malformed
          | some (more, below) => push (foldBreak line more) below
      else if double then
        if x == '\x22' then .ok ([], c.next)
        else if x == '\\' then
          match escaped c.next with
          | .error e => .error e
          | .ok (text, c) => push text c
        else push [x] c.next
      else if x == '\x27' then
        if rest.head? == some '\x27' then push ['\x27'] (c.skip 2) else .ok ([], c.next)
      else push [x] c.next

def quotedScalar (c : Cursor) : Except Refusal (String × Cursor) :=
  (quotedText (c.head? == some '\x22') c.next (c.rest.length + 1)).map fun (text, c) =>
    (String.ofList text, c)

/-! ## Plain scalars -/

/-- Whether a plain scalar ends before the character `x` with `y` after it. -/
def endsPlain (inFlow : Bool) (x : Char) (y : Option Char) : Bool :=
  endsWord (some x) ||
    (x == ':' && (endsWord y || (inFlow && y.any [',', '[', ']', '{', '}'].contains))) ||
    (inFlow && [',', '?', '[', ']', '{', '}'].contains x)

/-- The characters of a plain scalar up to a blank or an end. -/
def plainRun (inFlow : Bool) : List Char → List Char
  | [] => []
  | x :: rest => if endsPlain inFlow x rest.head? then [] else x :: plainRun inFlow rest

/-- The blank lines after a line end inside a plain scalar; none where a document ends. -/
def plainBreaks (c : Cursor) : Nat → Option (List Char) × Cursor
  | 0 => (none, c)
  | fuel + 1 =>
    let c := c.skipWhile (· == ' ')
    match c.passBreak with
    | ([], _) => (some [], c)
    | (line, after) =>
      if after.atBoundary then (none, after)
      else
        let (more, c) := plainBreaks after fuel
        (more.map (line ++ ·), c)

/-- What stands between two runs of a plain scalar, whether a line ended there, and the place after it;
nothing if no run can follow. -/
def plainGap (c : Cursor) : Option (List Char) × Bool × Cursor :=
  let (blanks, after) := c.span (· == ' ')
  match after.passBreak with
  | ([], _) => (if blanks.isEmpty then none else some blanks, false, after)
  | (line, below) =>
    if below.atBoundary then (none, true, below)
    else
      match plainBreaks below (below.rest.length + 1) with
      | (none, c) => (none, true, c)
      | (some more, c) => (some (foldBreak line more), true, c)

/-- A plain scalar: its text, whether a line ended after its last run, and the place after it. -/
def plainText (inFlow : Bool) (indent : Nat) (gap : List Char) (broke : Bool) (c : Cursor) :
    Nat → List Char × Bool × Cursor
  | 0 => ([], broke, c)
  | fuel + 1 =>
    let run := if c.head? == some '#' then [] else plainRun inFlow c.rest
    if run.isEmpty then ([], broke, c)
    else
      let text := gap ++ run
      match plainGap (c.skip run.length) with
      | (none, broke, c) => (text, broke, c)
      | (some gap, broke, c) =>
        if c.head? == some '#' || (!inFlow && c.column < indent) then (text, broke, c)
        else
          let (more, broke, c) := plainText inFlow indent gap broke c fuel
          (text ++ more, broke, c)

/-- A plain scalar that may go on at columns from `indent` on. -/
def plainScalar (inFlow : Bool) (indent : Nat) (c : Cursor) : String × Bool × Cursor :=
  let (text, broke, c) := plainText inFlow indent [] false c (c.rest.length + 1)
  (String.ofList text, broke, c)

/-! ## Block scalars -/

/-- What becomes of the line ends after the last line of a block scalar. -/
inductive Chomping where
  | strip
  | clip
  | keep
  deriving DecidableEq

def chomping? : Option Char → Option Chomping
  | some '+' => some .keep
  | some '-' => some .strip
  | _ => none

/-- The marks after the sign of a block scalar: its chomping and, if given, its indentation. -/
def blockMarks (c : Cursor) : Option (Chomping × Option Nat × Cursor) :=
  let digit? : Option Char → Option Nat := fun x =>
    match x with
    | some d => if Text.isAsciiDigit d then some (d.toNat - 48) else none
    | none => none
  let (chomping, width, c) := match chomping? c.head? with
    | some m =>
      match digit? (c.peek 1) with
      | some n => (m, some n, c.skip 2)
      | none => (m, none, c.next)
    | none =>
      match digit? c.head? with
      | some n =>
        match chomping? (c.peek 1) with
        | some m => (m, some n, c.skip 2)
        | none => (.clip, some n, c.next)
      | none => (.clip, none, c)
  if width == some 0 || !endsField c.head? then none else some (chomping, width, c)

/-- The blank lines before the first line of a block scalar, the greatest indentation seen, and the
place after them. -/
def blockLead (widest : Nat) (c : Cursor) : Nat → List Char × Nat × Cursor
  | 0 => ([], widest, c)
  | fuel + 1 =>
    if c.head? == some ' ' then blockLead (max widest c.next.column) c.next fuel
    else
      match c.passBreak with
      | ([], _) => ([], widest, c)
      | (line, after) =>
        let (more, widest, c) := blockLead widest after fuel
        (line ++ more, widest, c)

/-- The place after at most so many spaces that the column becomes `indent`. -/
def indented (indent : Nat) (c : Cursor) : Cursor :=
  c.skip (min ((c.rest.takeWhile (· == ' ')).length) (indent - c.column))

def blockBreaks (indent : Nat) (c : Cursor) : Nat → List Char × Cursor
  | 0 => ([], c)
  | fuel + 1 =>
    let c := indented indent c
    match c.passBreak with
    | ([], _) => ([], c)
    | (line, after) =>
      let (more, c) := blockBreaks indent after fuel
      (line ++ more, c)

/-- The lines of a block scalar from the first one on, `breaks` being the blank lines before it. -/
def blockLines (folded : Bool) (chomping : Chomping) (indent : Nat) (breaks : List Char) (c : Cursor) :
    Nat → List Char × Cursor
  | 0 => ([], c)
  | fuel + 1 =>
    let isText := fun (x : Option Char) => x.any (fun x => x != ' ' && x != '\t')
    let (line, after) := c.span (!isBreak ·)
    let (ending, after) := after.passBreak
    let (more, below) := blockBreaks indent after (after.rest.length + 1)
    let text := breaks ++ line
    if below.column == indent && !below.rest.isEmpty then
      let joint :=
        if folded && ending == ['\n'] && isText c.head? && isText below.head? then
          (if more.isEmpty then [' '] else [])
        else ending
      let (rest, c) := blockLines folded chomping indent more below fuel
      (text ++ joint ++ rest, c)
    else
      (text ++ (if chomping == .strip then [] else ending) ++ (if chomping == .keep then more else []),
        below)

/-- A block scalar whose sign comes next, inside a block whose entries stand `outer` columns in. -/
def blockScalar (outer : Nat) (c : Cursor) : Option (String × Cursor) :=
  match blockMarks c.next with
  | none => none
  | some (chomping, width, after) =>
    match after.passComment? with
    | none => none
    | some start =>
      let least := max outer 1
      let fuel := start.rest.length + 1
      let (breaks, indent, start) := match width with
        | some n =>
          let indent := least + n - 1
          let (breaks, start) := blockBreaks indent start fuel
          (breaks, indent, start)
        | none =>
          let (breaks, widest, start) := blockLead 0 start fuel
          (breaks, max least widest, start)
      if start.column == indent && !start.rest.isEmpty then
        let (text, c) := blockLines (c.head? == some '>') chomping indent breaks start fuel
        some (String.ofList text, c)
      else
        some (String.ofList (if chomping == .keep then breaks else []), start)

end CodeIndex.Yaml
