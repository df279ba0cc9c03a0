import CodeIndex.Text.Pieces

/-!
# Which changes are reported

A changed path is of interest if it ends with a wanted extension, no directory on it is ignored, and its
name is not that of a temporary file of an editor or the system.
-/

namespace CodeIndex.Watch

def ignoredDirs : List String :=
  ["__pycache__", ".git", ".hg", ".svn", ".tox", ".venv", ".idea", "node_modules", ".mypy_cache",
   ".pytest_cache", ".hypothesis"]

/-- Whether a character stands for any but a line feed. -/
def isAny (c : Char) : Bool :=
  c != '\n'

def matchStart? : List (Char → Bool) → List Char → Option (List Char)
  | [], cs => some cs
  | _ :: _, [] => none
  | p :: ps, c :: cs => if p c then matchStart? ps cs else none

/-- Whether a text is at its end, a last line feed not counted. -/
def isEnd (cs : List Char) : Bool :=
  cs.isEmpty || cs == ['\n']

def endsLike (pattern : List (Char → Bool)) : List Char → Bool
  | [] => pattern.isEmpty
  | c :: rest => (matchStart? pattern (c :: rest)).any isEnd || endsLike pattern rest

def exactly (s : String) : List (Char → Bool) :=
  s.toList.map fun c => (· == c)

def temporaryEndings : List (List (Char → Bool)) :=
  [exactly ".py" ++ [fun c => c == 'c' || c == 'o' || c == 'd'],
   exactly ".___jb_" ++ [isAny, isAny, isAny] ++ exactly "___",
   exactly ".sw" ++ [isAny],
   exactly "~"]

def isTemporary (name : String) : Bool :=
  temporaryEndings.any (endsLike · name.toList) || Text.startsWith name ".#" ||
    (matchStart? (exactly ".DS_Store") name.toList).any isEnd || Text.startsWith name "flycheck_"

structure Filter where
  extensions : List String
  excludedDirs : List String
  deriving Repr, DecidableEq, Inhabited

def Filter.accepts (f : Filter) (path : String) : Bool :=
  let names := Text.pieces '/' (String.ofList (path.toList.dropWhile (· == '/')))
  f.extensions.any (Text.endsWith path)
    && !names.any (fun name => ignoredDirs.contains name || f.excludedDirs.contains name)
    && !isTemporary (names.getLast?.getD "")

end CodeIndex.Watch
