import CodeIndex.FileTree.Basic
import CodeIndex.Settings.Basic
import CodeIndex.Text.Pieces

/-!
# Walking a project

The files of a project that are indexed: those with an indexed extension that are reached without
symbolic links and without any excluded directory.  The files of a directory come before those of the
directories in it, both by name.
-/

namespace CodeIndex

namespace Settings.Index

def isTemplate (s : Settings.Index) (path : String) : Bool :=
  s.templateExtensions.any (Text.endsWith path)

def isSource (s : Settings.Index) (path : String) : Bool :=
  s.sourceExtensions.any (Text.endsWith path)

def isIndexed (s : Settings.Index) (path : String) : Bool :=
  s.isTemplate path || s.isSource path

end Settings.Index

namespace Node

def byName {α : Type} (items : List (String × α)) : List (String × α) :=
  items.mergeSort fun a b => a.1 ≤ b.1

/-- One entry as a walk sees it: a file, or a directory with the files in it. -/
inductive Found where
  | file
  | files (paths : List (List String))

/-- The files of a directory before those of the directories in it, both by name. -/
def ordered (found : List (String × Found)) : List (List String) :=
  let names := byName (found.filterMap fun
    | (name, .file) => some (name, ())
    | _ => none)
  let below := byName (found.filterMap fun
    | (name, .files paths) => some (name, paths)
    | _ => none)
  names.map (fun (name, ()) => [name]) ++ below.flatMap fun (name, paths) => paths.map (name :: ·)

mutual

/-- What an entry is to a walk; a link is nothing. -/
def found? (excluded : List String) : Node → Option Found
  | .file .. => some .file
  | .link _ => none
  | .dir children => some (.files (ordered (entriesBelow excluded children)))

def entriesBelow (excluded : List String) : List (String × Node) → List (String × Found)
  | [] => []
  | entry :: rest => entryBelow excluded entry ++ entriesBelow excluded rest

/-- What a named entry is to a walk; an excluded directory is nothing. -/
def entryBelow (excluded : List String) : String × Node → List (String × Found)
  | (name, n) =>
    if n.isDir && excluded.contains name then []
    else ((found? excluded n).map fun found => (name, found)).toList

end

def filesBelow (excluded : List String) (n : Node) : List (List String) :=
  match found? excluded n with
  | some (.files paths) => paths
  | _ => []

/-- The indexed files of a project directory, relative to it, in the order of the walk. -/
def walk (s : Settings.Index) (project : Node) : List String :=
  ((filesBelow s.excludedDirs project).map ("/".intercalate ·)).filter s.isIndexed

end Node

end CodeIndex
