import CodeIndex.CommandLine.Run
import CodeIndex.Store.Saved

/-!
# The program

Reads the files of the project around the current directory, does what the arguments ask for, and writes
what came of it: the lines on both streams, the logs and the store.
-/

namespace CodeIndex.Outside

/-- The content of a file; a saved store is read as one. -/
def contentOf (bytes : ByteArray) : Content :=
  match (String.fromUTF8? bytes).bind Store.Tables.ofSaved? with
  | some tables => .database (.ofTables tables)
  | none => .bytes bytes.toList

/-- Directories whose files are never looked at. -/
def isClosed (name : String) : Bool :=
  name != layout.stateDir && (Settings.Index.excludedDirs {}).contains name

/-- The entry of a directory; nothing if it cannot be read. -/
partial def load (e : IO.FS.DirEntry) : IO (Option (String × Node)) := do
  try
    if ← e.path.isDir then
      if isClosed e.fileName then return some (e.fileName, Node.empty)
      let children ← (← e.path.readDir).toList.filterMapM load
      return some (e.fileName, .dir children)
    else return some (e.fileName, .file (contentOf (← IO.FS.readBinFile e.path)) false)
  catch _ => return none

/-- The marked directory nearest to one, if there is any. -/
partial def projectAbove (dir : String) : IO (Option String) := do
  let path ← IO.FS.realPath dir
  for mark in Node.projectMarks do
    if ← (path / mark).pathExists then return some path.toString
  match path.parent with
  | none => return none
  | some parent => if parent == path then return none else projectAbove parent.toString

/-- The files of the project around a directory, from the root of the machine. -/
def treeAround (here : String) : IO Node := do
  let dir := (← projectAbove here).getD here
  let children ← (← (← IO.FS.realPath dir).readDir).toList.filterMapM load
  return Node.empty.put (.dir children) (Path.ofString dir).names

def environment : IO (List (String × String)) := do
  let names := Settings.settingNames.flatMap fun (part, settings) =>
    let stem := Text.upper (Settings.variableStart ++ part)
    stem :: settings.map fun (name, _) => stem ++ "__" ++ Text.upper name
  names.filterMapM fun name => return (← IO.getEnv name).map (name, ·)

partial def readAll (s : IO.FS.Stream) (read : ByteArray) : IO ByteArray := do
  let bytes ← s.read 65536
  if bytes.isEmpty then return read else readAll s (read ++ bytes)

def terminal (arguments : List String) : IO CommandLine.Terminal := do
  let here := (← IO.currentDir).toString
  let home := Path.ofString ((← IO.getEnv "HOME").getD "/")
  let input ← if arguments.contains "-" then readAll (← IO.getStdin) .empty else pure .empty
  let tree ← treeAround here
  let w : Workspace := { tree, root := Path.ofString here, home }
  return {
    service := Service.ofWorkspace w, here := Path.ofString here, environment := ← environment
    everywhere := home.under (Path.ofString ".config/contextdex/config.yaml")
    input := input.toList, stamp := toString (← IO.monoMsNow) }

def save (p : Path) (bytes : ByteArray) : IO Unit := do
  IO.FS.createDirAll p.parent.toString
  IO.FS.writeBinFile p.toString bytes

def saveAll (t : CommandLine.Terminal) : IO Unit := do
  let w := t.workspace
  if let some tables := (w.tree.storeAt w.storePath).tables? then
    save w.storePath tables.saved.toUTF8
  for o in t.setup.outputs do
    if let .file p := o.target then
      save p (ByteArray.mk ((w.tree.read? p).getD []).toArray)

end CodeIndex.Outside

def main (arguments : List String) : IO UInt32 := do
  let t ← CodeIndex.Outside.terminal arguments
  let (result, t) := CodeIndex.CommandLine.perform arguments t
  (← IO.getStdout).putStr result.out
  (← IO.getStderr).putStr result.err
  if let some name := result.crash then
    (← IO.getStderr).putStrLn name
  CodeIndex.Outside.saveAll t
  return UInt32.ofNat result.exit
