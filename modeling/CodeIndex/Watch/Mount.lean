import CodeIndex.Path
import CodeIndex.Text.Word

/-!
# Mounted file systems

Paths below which changes are not reported by the system and have to be looked for.
-/

namespace CodeIndex.Watch

/-- The directories below which removable and remote file systems are mounted. -/
def remoteRoots : List String :=
  ["/run/user/", "/media/", "/net/"]

/-- Whether a path lies on a drive of a host system: below `/mnt/` and a single letter. -/
def isHostDrive (path : String) : Bool :=
  match path.toList with
  | '/' :: 'm' :: 'n' :: 't' :: '/' :: drive :: '/' :: _ => Text.isLetter drive
  | _ => false

def isRemote (p : Path) : Bool :=
  let path := p.withoutClimbs.toString
  isHostDrive path || remoteRoots.any (Text.startsWith path)

end CodeIndex.Watch
