import CommentTypes.Config.Basic
import CommentTypes.Workspace.Basic

/-!
# Discovery of files

Discovery of the files to check. A directory stands for the files below it that have one of the
extensions: first its own in ascending order, then those of its directories in ascending order.
Hidden and excluded directories are not entered, and nothing is found in those that cannot be listed
or have too long a path.
-/

namespace CommentTypes

/-- The name of an entry that does not show. -/
def isHidden (name : String) : Bool :=
  name.startsWith "." && name ≠ "." && name ≠ ".."

namespace Config

/-- The directory with a name is entered. -/
def enters (c : Config) (name : String) : Bool :=
  !c.excludeDirs.contains (.string name) && !isHidden name

/-- The file with a name is taken from a directory. -/
def takes (c : Config) (name : String) : Bool :=
  c.extensions.any (·.isEndOf name)

end Config

namespace Entry

/-- The names of the files that are taken, in ascending order. -/
def takenFiles (c : Config) (entries : List (String × Entry)) : List String :=
  ((entries.filter fun (name, e) => !e.isDir && c.takes name).map Prod.fst).mergeSort (· ≤ ·)

/-- A directory with a path is looked into, if its entries can be listed. -/
def isOpen (path : String) (listed : Bool) : Bool :=
  listed && path.utf8ByteSize < pathLimit

mutual

/-- The paths of the files to check below a directory with a path. -/
def found (c : Config) (path : String) : Entry → List String
  | .file _ => []
  | .dir entries listed =>
    if isOpen path listed then
      let below := foundBelow c path entries
      (takenFiles c entries).map (joinPath path) ++
        (below.mergeSort fun a b => a.1 ≤ b.1).flatMap Prod.snd
    else []

/-- What is found in each directory that is entered, under its name. -/
def foundBelow (c : Config) (path : String) :
    List (String × Entry) → List (String × List String)
  | [] => []
  | (name, e) :: rest =>
    if e.isDir && c.enters name then
      (name, found c (joinPath path name) e) :: foundBelow c path rest
    else foundBelow c path rest

end

mutual

/-- The number of directories that are entered one below the other, below one with a path. -/
def levels (c : Config) (path : String) : Entry → Nat
  | .file _ => 0
  | .dir entries listed =>
    if isOpen path listed then levelsBelow c path entries else 0

/-- The largest number of directories that are entered one below the other, from some entries on. -/
def levelsBelow (c : Config) (path : String) : List (String × Entry) → Nat
  | [] => 0
  | (name, e) :: rest =>
    if e.isDir && c.enters name then
      max (levels c (joinPath path name) e + 1) (levelsBelow c path rest)
    else levelsBelow c path rest

end

end Entry

namespace Workspace

/-- What a given path stands for. All but directories stand for themselves, whether there is such
a file or not. -/
def expand (w : Workspace) (c : Config) (path : String) : List String :=
  match w.entry path with
  | .ok (.dir entries listed) => (Entry.dir entries listed).found c path
  | _ => [path]

/-- The files to check, each once. -/
def discover (w : Workspace) (c : Config) (paths : List String) : List String :=
  (paths.flatMap (w.expand c)).eraseDups

/-- The path stands for a directory below which more are to be entered than the limit allows. -/
def isTooDeep (w : Workspace) (c : Config) (path : String) : Bool :=
  match w.entry path with
  | .ok e => !w.limits.levels.allows (e.levels c path)
  | .error _ => false

/-- The files to check, unless a directory goes too deep. -/
def discover? (w : Workspace) (c : Config) (paths : List String) : Option (List String) :=
  if paths.any (w.isTooDeep c) then none else some (w.discover c paths)

end Workspace

end CommentTypes
