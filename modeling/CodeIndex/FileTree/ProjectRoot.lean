import CodeIndex.FileTree.Basic
import CodeIndex.Settings.Basic

/-!
# Finding the project

The project that a place belongs to is the nearest directory at or above it that has one of the marks of a
project; without any it is the place itself.
-/

namespace CodeIndex.Node

def stepLimit : Nat := 1000

/-- The place that names lead to, links being followed as far as there are entries. -/
def realFrom (root : Node) (done : List String) (todo : List String) : Nat → List String
  | 0 => done ++ todo
  | fuel + 1 =>
    match todo with
    | [] => done
    | ".." :: rest => realFrom root done.dropLast rest fuel
    | name :: rest =>
      match root.at? (done ++ [name]) with
      | some (.link target) =>
        let p := Path.ofString target
        realFrom root (if p.isAbsolute then [] else done) (p.names ++ rest) fuel
      | _ => realFrom root (done ++ [name]) rest fuel

/-- An absolute path with links followed and without `..`. -/
def real (root : Node) (p : Path) : Path :=
  { root := "/", names := realFrom root [] p.names stepLimit }

def projectMarks : List String :=
  [layout.stateDir, "mix.exs", ".git"]

def isProject (root : Node) (names : List String) : Bool :=
  projectMarks.any fun mark => root.has { root := "/", names := names ++ [mark] }

/-- The nearest project directory at or above a place, given by its last name first. -/
def nearestProject? (root : Node) : List String → Option (List String)
  | [] => if root.isProject [] then some [] else none
  | name :: above =>
    let names := (name :: above).reverse
    if root.isProject names then some names else nearestProject? root above

def projectOf (root : Node) (start : Path) : Path :=
  let place := root.real start
  match nearestProject? root place.names.reverse with
  | some names => { root := "/", names }
  | none => place

end CodeIndex.Node
