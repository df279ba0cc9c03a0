import CodeIndex.Path
import CodeIndex.Store.Disk
import CodeIndex.Text.Utf8

/-!
# File trees

The files of a machine as a value: directories with named entries, files, and symbolic links.  A path
is resolved from the root, a link on the way being replaced by its target.
-/

namespace CodeIndex

inductive Content where
  | bytes (b : Bytes)
  | database (d : Store.Database)

inductive Node where
  | file (content : Content) (executable : Bool)
  | link (target : String)
  | dir (children : List (String × Node))
  deriving Inhabited

namespace Node

def empty : Node :=
  .dir []

def ofText (s : String) : Node :=
  .file (.bytes (Text.toBytes s)) false

def children : Node → List (String × Node)
  | .dir children => children
  | _ => []

def isDir : Node → Bool
  | .dir _ => true
  | _ => false

def isFile : Node → Bool
  | .file .. => true
  | _ => false

def child? (n : Node) (name : String) : Option Node :=
  n.children.lookup name

/-- The entries with one set: in place where the name is taken, otherwise last. -/
def setChild (children : List (String × Node)) (name : String) (n : Node) : List (String × Node) :=
  match children with
  | [] => [(name, n)]
  | (k, m) :: rest => if k == name then (k, n) :: rest else (k, m) :: setChild rest name n

/-- The entry that names lead to, links not being followed. -/
def at? (n : Node) : List String → Option Node
  | [] => some n
  | name :: rest => (n.child? name).bind fun m => m.at? rest

/-- The tree with an entry put where names lead, directories being made on the way. -/
def put (n : Node) (entry : Node) : List String → Node
  | [] => entry
  | name :: rest =>
    let inner := ((n.child? name).getD empty).put entry rest
    .dir (setChild n.children name inner)

/-- The tree without the entry that names lead to. -/
def remove (n : Node) : List String → Node
  | [] => n
  | [name] => .dir (n.children.filter (·.1 != name))
  | name :: rest =>
    match n.child? name with
    | some m => .dir (setChild n.children name (m.remove rest))
    | none => n

/-- How many links may be followed on the way to where a path leads. -/
def linkLimit : Nat := 40

/-- The place that names lead to from a directory.  A link on the way is left to `follow`, with the
directory that its target is read from and all the names that are still to go. -/
def advance (root : Node) (follow : List String → List String → Option (List String))
    (done : List String) : List String → Option (List String)
  | [] => some done
  | ".." :: rest => advance root follow done.dropLast rest
  | name :: rest =>
    match root.at? (done ++ [name]) with
    | none => none
    | some (.link target) =>
      let p := Path.ofString target
      follow (if p.isAbsolute then [] else done) (p.names ++ rest)
    | some (.file ..) => if rest.isEmpty then some (done ++ [name]) else none
    | some (.dir _) => advance root follow (done ++ [name]) rest

/-- The place that names lead to from a directory, by way of so many links at most. -/
def resolveFrom (root : Node) : Nat → List String → List String → Option (List String)
  | 0 => root.advance fun _ _ => none
  | links + 1 => root.advance (root.resolveFrom links)

/-- The place that an absolute path leads to; nothing if there is no such entry. -/
def resolve? (root : Node) (p : Path) : Option (List String) :=
  root.resolveFrom linkLimit [] p.names

def find? (root : Node) (p : Path) : Option Node :=
  (root.resolve? p).bind root.at?

def hasFile (root : Node) (p : Path) : Bool :=
  (root.find? p).any isFile

def hasDir (root : Node) (p : Path) : Bool :=
  (root.find? p).any isDir

def has (root : Node) (p : Path) : Bool :=
  (root.find? p).isSome

/-- The place of an absolute path for a new entry: its directory with links followed, and its name. -/
def placeFor (root : Node) (p : Path) : List String :=
  match root.resolve? p with
  | some names => names
  | none =>
    match root.resolve? p.parent with
    | some names => names ++ [p.name]
    | none => p.names

/-- The tree with a file written at a path; a link there is followed. -/
def write (root : Node) (p : Path) (content : Content) : Node :=
  let place := root.placeFor p
  let executable := match root.at? place with
    | some (.file _ executable) => executable
    | _ => false
  root.put (.file content executable) place

/-- The tree with a directory at a path, unless something is there. -/
def makeDir (root : Node) (p : Path) : Node :=
  if root.has p then root else root.put empty (root.placeFor p)

def read? (root : Node) (p : Path) : Option Bytes :=
  match root.find? p with
  | some (.file (.bytes b) _) => some b
  | some (.file (.database _) _) => some []
  | _ => none

def hasFileAbove (root : Node) (p : Path) : Bool :=
  (List.range p.names.length).any fun i => root.hasFile { p with names := p.names.take i }

/-- What stands where a store file should be, for a process that opens it now.  A connection that was open
before the file was overwritten may go on reading what it had. -/
def storeAt (root : Node) (p : Path) : Store.Disk :=
  match root.find? p with
  | some (.dir _) => .noFile
  | some (.file (.database d) _) => .database d
  | some (.file (.bytes b) _) => .ofBytes b
  | some (.link _) => .absent
  | none =>
    match root.find? p.parent with
    | some (.dir _) => .absent
    | some _ => .noDirectory ("[Errno 17] File exists: '" ++ p.parent.toString ++ "'")
    | none =>
      if root.hasFileAbove p then
        .noDirectory ("[Errno 20] Not a directory: '" ++ p.parent.toString ++ "'")
      else .absent

def setStore (root : Node) (p : Path) : Store.Disk → Node
  | .database d => root.write p (.database d)
  | .absent => match root.resolve? p with
    | some names => root.remove names
    | none => root
  | _ => root

end Node

end CodeIndex
