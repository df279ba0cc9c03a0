import CodeIndex.Path
import CodeIndex.Text.Case

/-!
# Batches of changes

What a watcher makes of a batch of changed paths: which of them are files now, which are gone, and a line
that sums up the batch for the log.
-/

namespace CodeIndex.Watch

def kindNames : List (String × String × String) :=
  [(".ex", "Elixir file", "Elixir files"), (".exs", "Elixir script", "Elixir scripts"),
   (".heex", "HEEx template", "HEEx templates"), (".eex", "EEx template", "EEx templates")]

def countText (ending : String) (count : Nat) : String :=
  let (one, several) :=
    match kindNames.lookup ending with
    | some names => names
    | none =>
      let label :=
        if ending == "" then "other" else Text.upper (String.ofList (ending.toList.dropWhile (· == '.')))
      (label ++ " file", label ++ " files")
  Nat.repr count ++ " " ++ if count == 1 then one else several

/-- How often each ending occurs, in order of first occurrence. -/
def endingCounts (endings : List String) : List (String × Nat) :=
  (Text.distinct endings).map fun e => (e, endings.count e)

def summarySize : Nat := 3

/-- A batch in words: its most frequent kinds of file and the number of the others. -/
def summary (paths : List Path) : String :=
  let counts := endingCounts (paths.map fun p => Text.lower p.suffix)
  let named := (counts.mergeSort fun a b => b.2 ≤ a.2).take summarySize
  let others := paths.length - (named.map (·.2)).foldl Nat.add 0
  let rest :=
    if others == 0 then [] else [Nat.repr others ++ if others == 1 then " other" else " others"]
  ", ".intercalate (named.map (fun (e, n) => countText e n) ++ rest)

/-- The paths of a batch in order and without repeats. -/
def sortedPaths (paths : List String) : List Path :=
  (Text.distinct (paths.map Path.ofString)).mergeSort Path.le

structure Batch where
  paths : List Path
  /-- The paths that lead to a file now. -/
  changed : List Path
  /-- The paths that lead nowhere now. -/
  deleted : List Path

/-- A batch of changed paths, given what paths lead to files and what paths lead to anything. -/
def Batch.ofPaths (isFile has : Path → Bool) (paths : List String) : Batch :=
  let paths := sortedPaths paths
  { paths, changed := paths.filter isFile, deleted := paths.filter (!has ·) }

end CodeIndex.Watch
