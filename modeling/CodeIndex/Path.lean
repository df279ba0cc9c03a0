import CodeIndex.Text.Pieces

/-!
# Paths

A path by its text: an optional root and the names below it.  Empty names and single dots between
slashes say nothing and are dropped, while `..` is a name like any other, because what it refers to
depends on links.
-/

namespace CodeIndex

/-- A path: `root` is empty for a relative path, otherwise `/` or `//`. -/
structure Path where
  root : String
  names : List String
  deriving Repr, DecidableEq, Inhabited

/-- The home directories on a machine: the own one, and by its text that of a user with a name, if there is
such a user.  The machine may refuse to look for a name. -/
structure Homes where
  own : Path
  others : String → Except String (Option String) := fun _ => .ok none
  deriving Inhabited

instance : Coe Path Homes := ⟨fun own => { own }⟩

namespace Path

/-- The root that a text starts with; exactly two slashes are a root of their own. -/
def rootOf : List Char → String
  | '/' :: '/' :: '/' :: _ => "/"
  | '/' :: '/' :: _ => "//"
  | '/' :: _ => "/"
  | _ => ""

def ofString (s : String) : Path :=
  { root := rootOf s.toList
    names := (Text.pieces '/' s).filter fun name => name != "" && name != "." }

/-- A path's text; the empty path is a dot. -/
def toString (p : Path) : String :=
  if p.root == "" && p.names.isEmpty then "." else p.root ++ "/".intercalate p.names

instance : ToString Path := ⟨Path.toString⟩

def isAbsolute (p : Path) : Bool :=
  p.root != ""

/-- The root, if any, followed by the names. -/
def parts (p : Path) : List String :=
  if p.root == "" then p.names else p.root :: p.names

/-- The last name, or the empty text. -/
def name (p : Path) : String :=
  p.names.getLast?.getD ""

/-- The path that `p` names when it is read from `base`. -/
def under (base p : Path) : Path :=
  if p.isAbsolute then p else { base with names := base.names ++ p.names }

/-- The path with a home directory in place of a name with a tilde at its front.  There is none where
nobody knows that home, and a reason where already the question is refused. -/
def expanded (homes : Homes) (p : Path) : Except String (Option Path) :=
  match p.names with
  | [] => .ok (some p)
  | first :: rest =>
    if p.root != "" || !Text.startsWith first "~" then .ok (some p)
    else if first == "~" then .ok (some { homes.own with names := homes.own.names ++ rest })
    else
      (homes.others (Text.withoutStart first "~")).map fun found => found.map fun home =>
        { ofString home with names := (ofString home).names ++ rest }

/-- Whether a path starts in a home directory that nobody knows. -/
def isHomeless (p : Path) (homes : Homes) : Bool :=
  match expanded homes p with
  | .ok none => true
  | _ => false

def parent (p : Path) : Path :=
  { p with names := p.names.dropLast }

/-- A path from the root in which each `..` has taken away the name before it. -/
def withoutClimbs (p : Path) : Path :=
  { root := "/"
    names := p.names.foldl (fun done name => if name == ".." then done.dropLast else done ++ [name]) [] }

/-- The names below `base`, if the path lies there by its text. -/
def below? (base p : Path) : Option Path :=
  if base.root == p.root && base.names.isPrefixOf p.names then
    some { root := "", names := p.names.drop base.names.length }
  else
    none

/-- The project-relative key of a path: what is below the project root for a path there, otherwise the
path itself. -/
def key (root : Path) (s : String) : String :=
  let p := ofString s
  if p.isAbsolute then ((below? root p).getD p).toString else p.toString

/-- The ending of a name from its last dot on, if something stands on both sides of it. -/
def suffixOfName (name : String) : String :=
  let tail := name.toList.reverse.takeWhile (· != '.')
  let size := name.toList.length
  if tail.length + 1 < size && tail.length != 0 then
    String.ofList (name.toList.drop (size - tail.length - 1))
  else
    ""

/-- The ending of a path's last name. -/
def suffix (p : Path) : String :=
  suffixOfName p.name

/-- Order on lists of names, the first difference deciding. -/
def lexLt : List String → List String → Bool
  | _, [] => false
  | [], _ :: _ => true
  | a :: as, b :: bs => a < b || (a == b && lexLt as bs)

def le (a b : Path) : Bool :=
  !lexLt b.parts a.parts

end Path

end CodeIndex
