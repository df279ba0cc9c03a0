import CodeIndex.FullText.Query

/-!
# Matching and ranking

Which rows a query matches, how often each of its phrases occurs in a row, and how relevant a row is.
A phrase counts in a row only where it takes part in the match.  A row is the more relevant the more
often its phrases occur, the shorter it is, and the fewer rows a phrase occurs in.
-/

namespace CodeIndex.FullText

structure Row where
  id : String
  container : String
  lexicalText : String
  deriving Repr, DecidableEq, Inhabited

def Row.text (r : Row) : Column → String
  | .id => r.id
  | .container => r.container
  | .lexicalText => r.lexicalText

structure Tokens where
  id : String
  columns : List (List String)

def Row.tokens (r : Row) : Tokens :=
  { id := r.id, columns := Column.all.map fun c => FullText.tokens (r.text c) }

def Tokens.size (t : Tokens) : Nat :=
  (t.columns.map List.length).foldl Nat.add 0

/-! ## Occurrences -/

def columnWidth : Nat := Nat.pow 2 32

def Term.accepts (t : Term) (token : String) : Bool :=
  if t.isPrefix then t.token.toList.isPrefixOf token.toList else t.token == token

def standsAt : List Term → List String → Bool
  | [], _ => true
  | _ :: _, [] => false
  | t :: terms, token :: tokens => t.accepts token && standsAt terms tokens

/-- The positions from `position` on at which words stand in tokens. -/
def occurrences (terms : List Term) (position : Nat) : List String → List Nat
  | [] => []
  | token :: rest =>
    let further := occurrences terms (position + 1) rest
    if standsAt terms (token :: rest) then position :: further else further

/-- The positions of a phrase in one column, whose first position is `start`. -/
def Phrase.inColumn (p : Phrase) (start : Nat) (tokens : List String) : List Nat :=
  if p.terms.isEmpty then []
  else
    let found := occurrences p.terms start tokens
    if p.atStart then found.filter (· == start) else found

/-- The positions of a phrase in some columns of a row, in order. -/
def Phrase.positions (p : Phrase) (columns : Option (List Column)) (t : Tokens) : List Nat :=
  (Column.all.zip t.columns).zipIdx.flatMap fun ((column, tokens), i) =>
    if (columns.map (·.contains column)).getD true then p.inColumn (i * columnWidth) tokens else []

/-! ## Closeness -/

/-- A phrase's positions in a group: those still to be read, the current one first, and those kept, the
last one first. -/
structure Track where
  size : Nat
  ahead : List Nat
  kept : List Nat := []

def Track.following (t : Track) : Option Nat :=
  t.ahead[1]?

/-- Moves each track up to the window below the greatest position `top`: the tracks, the new greatest
position, and whether all were inside.  Nothing if a track ends. -/
def settle (distance : Nat) (top : Nat) : List Track → Option (List Track × Nat × Bool)
  | [] => some ([], top, true)
  | t :: rest =>
    let low := top - t.size - distance
    match t.ahead with
    | [] => none
    | p :: _ =>
      if p < low || top < p then
        match t.ahead.dropWhile (· < low) with
        | [] => none
        | p :: more =>
          (settle distance (max top p) rest).map fun (ts, top, _) =>
            ({ t with ahead := p :: more } :: ts, top, false)
      else
        (settle distance top rest).map fun (ts, top, inside) => (t :: ts, top, inside)

/-- Moves the tracks until all positions are inside one window. -/
def align (distance : Nat) (top : Nat) (tracks : List Track) : Nat → Option (List Track)
  | 0 => none
  | fuel + 1 =>
    match settle distance top tracks with
    | none => none
    | some (tracks, _, true) => some tracks
    | some (tracks, top, false) => align distance top tracks fuel

def Track.keep (t : Track) : Track :=
  match t.ahead with
  | [] => t
  | p :: _ => if t.kept.head? == some p then t else { t with kept := p :: t.kept }

/-- The index of the track whose following position is the least; a track without one is last. -/
def leastFollowing (tracks : List Track) : Nat :=
  let key := fun (t : Track) => t.following.getD (Nat.pow 2 62)
  let least := (tracks.map key).foldl min (Nat.pow 2 62)
  (tracks.findIdx? (fun t => key t == least)).getD 0

/-- The positions kept of each phrase of a group, after the window has moved over all positions. -/
def sweep (distance : Nat) (tracks : List Track) : Nat → List Track
  | 0 => tracks
  | fuel + 1 =>
    let top := (tracks.head?.bind (·.ahead.head?)).getD 0
    match align distance top tracks (2 * (tracks.map (·.ahead.length)).foldl Nat.add 0 + 4) with
    | none => tracks
    | some tracks =>
      let tracks := tracks.map Track.keep
      let i := leastFollowing tracks
      let moved := tracks.modify i fun t => { t with ahead := t.ahead.tail }
      if (moved[i]?.map (·.ahead.isEmpty)).getD true then tracks else sweep distance moved fuel

/-- How often each phrase of a group takes part in a match of the group in a row; nothing if the group
does not match. -/
def Group.counts? (g : Group) (t : Tokens) : Option (List Nat) :=
  let found := g.phrases.map fun p => (p, p.positions g.columns t)
  if found.any (·.2.isEmpty) then none
  else if found.length == 1 then some (found.map (·.2.length))
  else
    let fuel := (found.map (·.2.length)).foldl Nat.add 0 + 2
    let tracks := found.map fun (p, ahead) => ({ size := p.terms.length, ahead } : Track)
    let kept := (sweep g.distance tracks fuel).map (·.kept.length)
    if kept.headD 0 == 0 then none else some kept

def Phrase.hasWords (p : Phrase) (t : Tokens) : Bool :=
  p.terms.all fun term => t.columns.any fun tokens => tokens.any term.accepts

def Group.hasWords (g : Group) (t : Tokens) : Bool :=
  g.phrases.all fun p => !p.terms.isEmpty && p.hasWords t

/-- How often each phrase of a group occurs in a row that has all its words and does not match: phrases
count up to the first that does not occur.  If all occur, they are too far apart, and none counts. -/
def Group.nearMiss (g : Group) (t : Tokens) : List Nat :=
  let found := g.phrases.map fun p => (p.positions g.columns t).length
  let before := found.takeWhile (· != 0)
  if g.hasWords t && before.length < found.length then
    before ++ List.replicate (found.length - before.length) 0
  else found.map fun _ => 0

/-! ## Queries -/

namespace Query

def phrases : Query → List (Phrase × Option (List Column))
  | .group g => g.phrases.map fun p => (p, g.columns)
  | .both a b => phrases a ++ phrases b
  | .either a b => phrases a ++ phrases b
  | .except a b => phrases a ++ phrases b

def noCounts (q : Query) : List Nat :=
  q.phrases.map fun _ => 0

def matchesTokens (t : Tokens) : Query → Bool
  | .group g => (g.counts? t).isSome
  | .both a b => matchesTokens t a && matchesTokens t b
  | .either a b => matchesTokens t a || matchesTokens t b
  | .except a b => matchesTokens t a && !matchesTokens t b

/-- Whether a row has the words that a query asks for, so that it is worth a closer look. -/
def mayMatch (t : Tokens) : Query → Bool
  | .group g => g.hasWords t
  | .both a b => mayMatch t a && mayMatch t b
  | .either a b => mayMatch t a || mayMatch t b
  | .except a b => mayMatch t a && !(mayMatch t b && matchesTokens t b)

/-- Whether a row is the first of all that may match a query. -/
def isFirst (all : List Tokens) (t : Tokens) (q : Query) : Bool :=
  ((all.find? fun other => mayMatch other q).map (·.id)) == some t.id

/-- How often each phrase of a query counts in the row `t` among all rows.  What `NOT` drops is not
looked at beyond the first row that has its words, unless some row has the words of what is kept. -/
def counts (all : List Tokens) (t : Tokens) : Query → List Nat
  | .group g => (g.counts? t).getD (g.nearMiss t)
  | .both a b =>
    if matchesTokens t a && matchesTokens t b then counts all t a ++ counts all t b
    else a.noCounts ++ b.noCounts
  | .either a b => counts all t a ++ counts all t b
  | .except a b =>
    if mayMatch t a && !(mayMatch t b && matchesTokens t b) then counts all t a ++ counts all t b
    else if !all.any (fun other => mayMatch other a) then
      counts all t a ++ (if isFirst all t b then counts all t b else b.noCounts)
    else a.noCounts ++ b.noCounts

def accepts (q : Query) (r : Row) : Bool :=
  q.matchesTokens r.tokens

end Query

/-! ## Relevance -/

/-- How much further occurrences add, how much the length of a row takes away, and what a phrase that
most rows have is worth. -/
structure Weights where
  saturation : Float := 1.2
  length : Float := 0.75
  least : Float := 1e-6

def weights : Weights := {}

def number (n : Nat) : Float :=
  n.toUInt64.toFloat

/-- How telling a phrase is that `hits` of `rows` rows have. -/
def telling (rows hits : Nat) : Float :=
  let x := Float.log ((number rows - number hits + 0.5) / (number hits + 0.5))
  if x ≤ 0.0 then weights.least else x

/-- The relevance of a row of `size` tokens, from how telling each phrase is and how often it
counts. -/
def relevance (average : Float) (size : Nat) (phrases : List (Float × Nat)) : Float :=
  phrases.foldl (fun sum (idf, count) =>
    let f := number count
    sum + idf * ((f * (weights.saturation + 1.0)) /
      (f + weights.saturation * (1.0 - weights.length + weights.length * number size / average)))) 0.0

/-- The rows that a query matches with their relevance, in the order of the rows. -/
def scored (q : Query) (rows : List Row) : List (Row × Float) :=
  let all := rows.map fun r => (r, r.tokens)
  let count := all.length
  let average := number ((all.map (·.2.size)).foldl Nat.add 0) / number count
  let tellings := q.phrases.map fun (p, columns) =>
    telling count (all.countP fun (_, t) => !(p.positions columns t).isEmpty)
  let texts := all.map (·.2)
  (all.filter fun (_, t) => q.matchesTokens t).map fun (r, t) =>
    (r, relevance average t.size (tellings.zip (q.counts texts t)))

/-- The rows that a query matches, the most relevant first and equals in their order. -/
def ranked (q : Query) (rows : List Row) : List (Row × Float) :=
  (scored q rows).mergeSort fun a b => b.2 ≤ a.2

end CodeIndex.FullText
