import CodeIndex.FullText.Token

/-!
# Queries

The language of full-text queries.  Strings side by side have to occur together, `AND`, `OR` and `NOT`
combine what stands around them, `+` joins strings to a phrase, a star makes the last word a beginning
of words, a caret asks for the start of a column, `NEAR` asks for strings close to each other, and a
filter in front of a colon names the columns to look in.

A reader with a bounded stack reads the query, so a query that is nested too deep is refused like one
that is not well-formed.
-/

namespace CodeIndex.FullText

inductive Column where
  | id
  | container
  | lexicalText
  deriving Repr, DecidableEq, Inhabited

def Column.all : List Column :=
  [.id, .container, .lexicalText]

def Column.label : Column → String
  | .id => "id"
  | .container => "container"
  | .lexicalText => "lexical_text"

/-- One word of a phrase: a whole token, or the beginning of one. -/
structure Term where
  token : String
  isPrefix : Bool := false
  deriving Repr, DecidableEq

structure Phrase where
  terms : List Term
  /-- Whether the first word has to be the first of its column. -/
  atStart : Bool := false
  deriving Repr, DecidableEq

structure Group where
  phrases : List Phrase
  /-- How many words may stand between two phrases. -/
  distance : Nat := 10
  /-- The columns to look in; all if absent. -/
  columns : Option (List Column) := none
  deriving Repr, DecidableEq

inductive Query where
  | group (g : Group)
  | both (a b : Query)
  | either (a b : Query)
  | except (kept dropped : Query)
  deriving Repr

namespace Query

/-! ## Tokens of a query -/

inductive Sign where
  | leftParen
  | rightParen
  | leftBrace
  | rightBrace
  | colon
  | comma
  | plus
  | star
  | minus
  | caret
  | and
  | or
  | not
  /-- A string by its written form. -/
  | string (written : List Char)
  deriving Repr, DecidableEq

def signs : List (Char × Sign) :=
  [('(', .leftParen), (')', .rightParen), ('{', .leftBrace), ('}', .rightBrace), (':', .colon),
   (',', .comma), ('+', .plus), ('*', .star), ('-', .minus), ('^', .caret)]

/-- A character of a string that needs no quotes. -/
def isBare (c : Char) : Bool :=
  Text.isAsciiLetter c || Text.isAsciiDigit c || c == '_' || c == '\x1a' || 0x80 ≤ c.toNat

/-- The rest of a quoted string after its opening quote: what is written up to and with the closing
quote, and what follows. -/
def closing : List Char → Option (List Char × List Char)
  | [] => none
  | '\x22' :: '\x22' :: rest => (closing rest).map fun (s, rest) => ('\x22' :: '\x22' :: s, rest)
  | '\x22' :: rest => some (['\x22'], rest)
  | c :: rest => (closing rest).map fun (s, rest) => (c :: s, rest)

/-- A bare string as a sign: three of them are operators. -/
def ofBare (written : List Char) : Sign :=
  if written == ['A', 'N', 'D'] then .and
  else if written == ['O', 'R'] then .or
  else if written == ['N', 'O', 'T'] then .not
  else .string written

/-- The signs of a query; nothing if some character starts none. -/
def scan (cs : List Char) : Nat → Option (List Sign)
  | 0 => none
  | fuel + 1 =>
    match cs with
    | [] => some []
    | c :: rest =>
      if c == ' ' || c == '\t' || c == '\n' || c == '\r' then scan rest fuel
      else if c == '\x22' then
        match closing rest with
        | none => none
        | some (s, rest) => (scan rest fuel).map (.string (c :: s) :: ·)
      else
        match signs.lookup c with
        | some s => (scan rest fuel).map (s :: ·)
        | none =>
          if isBare c then
            let more := rest.takeWhile isBare
            (scan (rest.drop more.length) fuel).map (ofBare (c :: more) :: ·)
          else none

/-- What a string stands for: without its quotes, and with single quotes for doubled ones. -/
def unquoted : List Char → List Char
  | '\x22' :: rest => go rest
  | cs => cs
where
  go : List Char → List Char
    | '\x22' :: '\x22' :: rest => '\x22' :: go rest
    | '\x22' :: _ => []
    | c :: rest => c :: go rest
    | [] => []

/-! ## Building queries -/

/-- Whether a query is a group with an empty phrase, which matches nothing. -/
def isVoid : Query → Bool
  | .group g => g.phrases.any (·.terms.isEmpty)
  | _ => false

/-- Queries side by side: one that is void says nothing. -/
def beside (a b : Query) : Query :=
  if b.isVoid then a
  else
    match a with
    | .both front last => if last.isVoid then .both front b else .both a b
    | _ => if a.isVoid then b else .both a b

/-- Adds a phrase to the phrases of a group: an empty one gives way to any other. -/
def addPhrase (phrases : List Phrase) (p : Phrase) : List Phrase :=
  match phrases.getLast? with
  | none => [p]
  | some last =>
    if p.terms.isEmpty then phrases
    else if last.terms.isEmpty then phrases.dropLast ++ [p]
    else phrases ++ [p]

def Group.within (columns : List Column) (g : Group) : Group :=
  { g with columns := some (match g.columns with
      | none => columns
      | some own => own.filter columns.contains) }

def within (columns : List Column) (q : Query) : Query :=
  match q with
  | .group g => .group (Group.within columns g)
  | .both a b => .both (within columns a) (within columns b)
  | .either a b => .either (within columns a) (within columns b)
  | .except a b => .except (within columns a) (within columns b)

def isBoth : Query → Bool
  | .both .. => true
  | _ => false

def isEither : Query → Bool
  | .either .. => true
  | _ => false

/-- The number of levels of operators, where a chain of one operator that requires both or either is one
level. -/
def height : Query → Nat
  | .group _ => 0
  | .both a b =>
    max (height a + (if isBoth a then 0 else 1)) (height b + (if isBoth b then 0 else 1))
  | .either a b =>
    max (height a + (if isEither a then 0 else 1)) (height b + (if isEither b then 0 else 1))
  | .except a b => max (height a) (height b) + 1

/-! ## Reading -/

def stackLimit : Nat := 99

def heightLimit : Nat := 256

abbrev Read (α : Type) := Option (α × List Sign)

/-- The column with a name; case does not count. -/
def column? (written : List Char) : Option Column :=
  let name := String.ofList ((unquoted written).map Char.toLower)
  Column.all.find? (·.label == name)

def columns? : List Sign → Read (List Column)
  | .string s :: .rightBrace :: rest => (column? s).map fun c => ([c], rest)
  | .string s :: rest =>
    match column? s, columns? rest with
    | some c, some (cs, rest) => some (c :: cs, rest)
    | _, _ => none
  | _ => none

/-- The columns that are not among some. -/
def others (columns : List Column) : List Column :=
  Column.all.filter fun c => !columns.contains c

/-- The filter in front of a colon, if there is one; nothing if it is not well-formed. -/
def filter? : List Sign → Read (Option (List Column))
  | .minus :: .leftBrace :: rest =>
    match columns? rest with
    | some (cs, .colon :: rest) => some (some (others cs), rest)
    | _ => none
  | .leftBrace :: rest =>
    match columns? rest with
    | some (cs, .colon :: rest) => some (some cs, rest)
    | _ => none
  | .minus :: .string s :: .colon :: rest => (column? s).map fun c => (some (others [c]), rest)
  | .minus :: _ => none
  | .string s :: .colon :: rest => (column? s).map fun c => (some [c], rest)
  | signs => some (none, signs)

/-- A string as the words of a phrase, the last one being a beginning if a star follows. -/
def words (written : List Char) (starred : Bool) : List Term :=
  let tokens := (tokensFrom none (unquoted written)).map String.ofList
  match tokens.reverse with
  | [] => []
  | last :: front => front.reverse.map (fun t => ⟨t, false⟩) ++ [⟨last, starred⟩]

/-- Makes the last word of a phrase a beginning, or a whole token. -/
def starLast (starred : Bool) (terms : List Term) : List Term :=
  match terms.reverse with
  | [] => []
  | last :: front => front.reverse ++ [{ last with isPrefix := starred }]

/-- The strings of a phrase after its first, each behind a plus.  Whether the last word is a beginning is
up to the last string, even if that has no words. -/
def phraseTail (depth : Nat) (terms : List Term) : List Sign → Read (List Term)
  | .plus :: .string s :: .star :: rest =>
    if stackLimit < depth + 4 then none
    else phraseTail depth (starLast true (terms ++ words s true)) rest
  | .plus :: .string s :: rest =>
    if stackLimit < depth + 4 then none
    else phraseTail depth (starLast false (terms ++ words s false)) rest
  | .plus :: _ => none
  | signs => some (terms, signs)

def phrase? (depth : Nat) : List Sign → Read (List Term)
  | .string s :: .star :: rest =>
    if stackLimit < depth + 2 then none else phraseTail depth (words s true) rest
  | .string s :: rest =>
    if stackLimit < depth + 2 then none else phraseTail depth (words s false) rest
  | _ => none

/-- The phrases inside `NEAR`, up to the comma or the closing parenthesis. -/
def nearPhrases (depth : Nat) (phrases : List Phrase) (signs : List Sign) :
    Nat → Read (List Phrase)
  | 0 => none
  | fuel + 1 =>
    match signs with
    | .string _ :: _ =>
      match phrase? (if phrases.isEmpty then depth + 2 else depth + 3) signs with
      | none => none
      | some (terms, rest) => nearPhrases depth (addPhrase phrases { terms }) rest fuel
    | _ => if phrases.isEmpty then none else some (phrases, signs)

/-- The number that a string spells with digits alone. -/
def number? (written : List Char) : Option Nat :=
  if written.all Text.isAsciiDigit then
    some (written.foldl (fun n c => 10 * n + (c.toNat - 48)) 0)
  else none

def group? (depth : Nat) (signs : List Sign) : Read Group :=
  match signs with
  | .caret :: rest =>
    (phrase? (depth + 1) rest).map fun (terms, rest) =>
      ({ phrases := [{ terms, atStart := true }] }, rest)
  | .string s :: .leftParen :: rest =>
    if s != ['N', 'E', 'A', 'R'] || stackLimit < depth + 5 then none
    else
      match nearPhrases depth [] rest (rest.length + 1) with
      | some (phrases, .comma :: .string n :: .rightParen :: rest) =>
        (number? n).map fun distance => ({ phrases, distance }, rest)
      | some (phrases, .rightParen :: rest) => some ({ phrases }, rest)
      | _ => none
  | _ => (phrase? depth signs).map fun (terms, rest) => ({ phrases := [{ terms }] }, rest)

def filtered? (depth : Nat) (signs : List Sign) : Read Query :=
  match filter? signs with
  | none => none
  | some (none, rest) => (group? depth rest).map fun (g, rest) => (.group g, rest)
  | some (some columns, rest) =>
    (group? (depth + 2) rest).map fun (g, rest) => (.group (Group.within columns g), rest)

def startsGroup : Option Sign → Bool
  | some (.string _) => true
  | some .minus => true
  | some .leftBrace => true
  | some .caret => true
  | _ => false

def besideTail (depth : Nat) (q : Query) (signs : List Sign) : Nat → Read Query
  | 0 => none
  | fuel + 1 =>
    if startsGroup signs.head? then
      match filtered? (depth + 1) signs with
      | none => none
      | some (next, rest) => besideTail depth (beside q next) rest fuel
    else some (q, signs)

def operator? : Option Sign → Option (Nat × (Query → Query → Query))
  | some .or => some (0, .either)
  | some .and => some (1, .both)
  | some .not => some (2, .except)
  | _ => none

mutual

def operand? (depth : Nat) (signs : List Sign) : Nat → Read Query
  | 0 => none
  | fuel + 1 =>
    match signs with
    | .leftParen :: rest =>
      if stackLimit < depth + 1 then none
      else
        match expression? 0 (depth + 1) rest fuel with
        | some (q, .rightParen :: rest) => some (q, rest)
        | _ => none
    | _ =>
      match filter? signs with
      | some (some columns, .leftParen :: rest) =>
        if stackLimit < depth + 3 then none
        else
          match expression? 0 (depth + 3) rest fuel with
          | some (q, .rightParen :: rest) => some (q.within columns, rest)
          | _ => none
      | _ =>
        match filtered? depth signs with
        | none => none
        | some (q, rest) => besideTail depth q rest (rest.length + 1)
termination_by structural fuel => fuel

/-- A query of operators that are at least so strong. -/
def expression? (least depth : Nat) (signs : List Sign) : Nat → Read Query
  | 0 => none
  | fuel + 1 =>
    match operand? depth signs fuel with
    | none => none
    | some (q, rest) => operators? least depth q rest fuel
termination_by structural fuel => fuel

/-- The operators after the left side of a query, and their right sides. -/
def operators? (least depth : Nat) (q : Query) (signs : List Sign) : Nat → Read Query
  | 0 => none
  | fuel + 1 =>
    match operator? signs.head? with
    | none => some (q, signs)
    | some (strength, join) =>
      if strength < least then some (q, signs)
      else
        match expression? (strength + 1) (depth + 2) signs.tail fuel with
        | none => none
        | some (right, rest) => operators? least depth (join q right) rest fuel
termination_by structural fuel => fuel

end

def void : Query :=
  .group { phrases := [{ terms := [] }] }

/-- Whether a text starts with a star and the name of a figure about the table itself. -/
def asksForFigure : List Char → Bool
  | '*' :: rest =>
    let name := String.ofList (((rest.dropWhile (· == ' ')).takeWhile (· != ' ')).map Char.toLower)
    name == "id" || name == "reads"
  | _ => false

/-- The query that a text spells; nothing if the text is not well-formed.  A null character ends the
text, and a figure about the table is found in no row. -/
def ofString? (s : String) : Option Query :=
  let cs := s.toList.takeWhile (· != '\x00')
  if asksForFigure cs then some void
  else
  match scan cs (cs.length + 1) with
  | none => none
  | some signs =>
    match expression? 0 0 signs (4 * signs.length + 8) with
    | some (q, []) => if heightLimit < q.height then none else some q
    | _ => none

end Query

end CodeIndex.FullText
