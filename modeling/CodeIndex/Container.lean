import CodeIndex.Path
import CodeIndex.Text.Case

/-!
# Container names from file layout

Below a source directory the directories and the file name spell a dotted container name:
`lib/my_app/accounts/user.ex` names `MyApp.Accounts.User`.  A path outside that layout gets a default.
-/

namespace CodeIndex

/-- A word with its first letter in upper case. -/
def capitalize (word : String) : String :=
  match word.toList with
  | [] => ""
  | c :: rest => String.ofList (Text.upperChar c ++ rest)

/-- A segment with its words between underscores capitalised and joined. -/
def camelize (segment : String) : String :=
  String.join ((Text.pieces '_' segment).map capitalize)

/-- The parts after the first source directory that has at least two parts after it. -/
def belowSource? (sourceDirs : List String) : List String → Option (List String)
  | [] => none
  | part :: rest =>
    if sourceDirs.contains part && 2 ≤ rest.length then some rest
    else belowSource? sourceDirs rest

/-- The container name of a path, or `fallback` where the layout gives none. -/
def containerOfPath (path : String) (sourceDirs extensions : List String) (fallback : String) :
    String :=
  let slashed := String.ofList (path.toList.map fun c => if c == '\\' then '/' else c)
  let parts := (Path.ofString slashed).parts
  let name := parts.getLast?.getD ""
  if extensions.any (Text.endsWith name) then
    match belowSource? sourceDirs parts with
    | none => fallback
    | some rest =>
      let stem := String.ofList (name.toList.takeWhile (· != '.'))
      if stem == "" then fallback
      else ".".intercalate ((rest.dropLast ++ [stem]).map camelize)
  else
    fallback

end CodeIndex
