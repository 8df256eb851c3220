import CommentTypes.Limit
import CommentTypes.Text.Newline
import CommentTypes.Text.Quoted
import CommentTypes.Text.Utf8
import CommentTypes.Workspace.Entry
import CommentTypes.Workspace.Path
import CommentTypes.Workspace.SystemError

/-!
# Workspaces

Workspaces: a directory tree with a current directory, in which paths are followed, files read and
written, and directories made.
-/

namespace CommentTypes

/-- The longest name of an entry, in bytes. -/
def nameLimit : Nat := 255

/-- All directories and files, the names that lead to the current directory, the home directories of
users by name, where the empty name is the user at work, and how deep a program may go. -/
structure Workspace where
  root : Entry
  current : List String := []
  homes : List (String × String) := []
  limits : Limits := {}

namespace Workspace

/-- The way from the root to a place: the names on it and what they lead to, the last first. -/
abbrev Trail := List (String × Entry)

/-- The names on a way, from the root. -/
def Trail.names (t : Trail) : List String :=
  t.reverse.map Prod.fst

/-- What stands at the end of a way. -/
def Trail.target (root : Entry) : Trail → Entry
  | [] => root
  | (_, e) :: _ => e

/-- Follows the parts of a path from a place. The parent of the root is the root. -/
def follow (root : Entry) (trail : Trail) : List String → Except SystemError Trail
  | [] => .ok trail
  | part :: rest =>
    match trail.target root with
    | .file _ => .error .notDirectory
    | .dir entries _ =>
      if isIdlePart part then follow root trail rest
      else if part = ".." then follow root trail.tail rest
      else if nameLimit < part.utf8ByteSize then .error .nameTooLong
      else match entries.lookup part with
        | none => .error .notFound
        | some e => follow root ((part, e) :: trail) rest

/-- Where a path starts: at the root or in the current directory. -/
def origin (w : Workspace) (path : String) : Except SystemError Trail :=
  if path.toList.head? = some '/' then .ok [] else follow w.root [] w.current

/-- The way that a path leads. The empty path leads nowhere. -/
def locate (w : Workspace) (path : String) : Except SystemError Trail := do
  if path = "" then .error .notFound
  else if pathLimit ≤ path.utf8ByteSize then .error .nameTooLong
  else follow w.root (← w.origin path) (pathParts path)

/-- The file or directory that a path leads to. -/
def entry (w : Workspace) (path : String) : Except SystemError Entry := do
  return (← w.locate path).target w.root

/-- The path leads to a directory. -/
def isDirectory (w : Workspace) (path : String) : Bool :=
  match w.entry path with
  | .ok e => e.isDir
  | .error _ => false

/-- The bytes of a file. -/
def readBytes (w : Workspace) (path : Path) : Except SystemError (List UInt8) :=
  match w.entry path.render with
  | .ok (.file bytes) => .ok bytes
  | .ok (.dir _ listed) => .error (if listed then .isDirectory else .denied)
  | .error e => .error e

/-- Why a file has no text. -/
inductive TextError where
  | nullInPath
  | refused (why : SystemError)
  | undecodable (why : Text.Utf8.DecodeError)

/-- The text of a file, with all line ends written as line feeds. -/
def readText (w : Workspace) (path : Path) : Except TextError String := do
  if path.hasNull then throw .nullInPath
  let bytes ← (w.readBytes path).mapError .refused
  let cs ← (Text.Utf8.decodeStrict bytes).mapError .undecodable
  return String.ofList (Text.unifyNewlines cs)

/-- The names that lead to a new entry. Its place has to be free. -/
def freePlace (w : Workspace) (path : Path) : Except SystemError (List String) :=
  match w.entry path.render, path.parts.getLast? with
  | .ok _, _ => .error .alreadyExists
  | .error .notFound, some name => do
    if name = ".." then .error .notFound
    else return (← w.locate path.parent.render).names ++ [name]
  | .error e, _ => .error e

/-- Puts an entry at a free place. -/
def putNew (w : Workspace) (path : Path) (e : Entry) : Except SystemError Workspace := do
  return { w with root := w.root.put (← w.freePlace path) e }

/-- Writes a file, in place of one that is there. -/
def write (w : Workspace) (path : Path) (bytes : List UInt8) : Except SystemError Workspace :=
  match w.entry path.render with
  | .ok (.dir _ _) => .error .isDirectory
  | .ok (.file _) => do
    return { w with root := w.root.put (← w.locate path.render).names (.file bytes) }
  | .error _ => w.putNew path (.file bytes)

/-- Makes a directory. -/
def makeDir (w : Workspace) (path : Path) : Except SystemError Workspace :=
  w.putNew path (.dir [])

/-- A fault, and the path at which it arose. -/
structure PathError where
  why : SystemError
  path : Path
  deriving DecidableEq

/-- The fault as text, with its number and the path in quotes. -/
def PathError.render (e : PathError) : String :=
  s!"[Errno {e.why.number}] {e.why.text}: {Text.quoted e.path.render}"

/-- Why a file cannot be saved. -/
inductive SaveError where
  | nullInPath
  | noHome
  /-- More directories are missing one above the other than can be made. -/
  | tooDeep
  | refused (why : PathError)
  deriving DecidableEq

/-- The fault that a directory is not there and cannot be made, unless it is there. -/
def unlessDirectory (w : Workspace) (why : SystemError) (path : Path) : Option SaveError :=
  if w.isDirectory path.render then none else some (.refused ⟨why, path⟩)

/-- Makes a directory for which the ones above it may be missing, given by its parts, the last
first. A directory that is there already will do. What was made stays, also if a later one cannot
be made. The limit is for the directories that are missing above. -/
def makeDirsAt (anchor : String) (w : Workspace) :
    Limit → List String → Workspace × Option SaveError
  | _, [] => (w, w.unlessDirectory .notFound { anchor })
  | limit, part :: above =>
    let path : Path := { anchor, parts := (part :: above).reverse }
    match w.makeDir path with
    | .ok made => (made, none)
    | .error .notFound =>
      if !limit.allows 1 then (w, some .tooDeep)
      else match makeDirsAt anchor w limit.inside above with
        | (w, some e) => (w, some e)
        | (w, none) =>
          match w.makeDir path with
          | .ok made => (made, none)
          | .error e => (w, w.unlessDirectory e path)
    | .error e => (w, w.unlessDirectory e path)

/-- Makes a directory and the ones above it. -/
def makeDirs (w : Workspace) (path : Path) : Workspace × Option SaveError :=
  makeDirsAt path.anchor w w.limits.missing path.parts.reverse

/-- Makes the directory of a file if it is missing. -/
def prepare (w : Workspace) (path : Path) : Workspace × Option SaveError :=
  if path.parent.hasNull then (w, some .nullInPath)
  else match w.entry path.parent.render with
    | .ok _ => (w, none)
    | .error _ => w.makeDirs path.parent

/-- Writes a file into a directory that is made if it is missing. -/
def save (w : Workspace) (path : Path) (bytes : List UInt8) : Workspace × Option SaveError :=
  match w.prepare path with
  | (w, some e) => (w, some e)
  | (w, none) =>
    if path.hasNull then (w, some .nullInPath)
    else match w.write path bytes with
      | .ok written => (written, none)
      | .error e => (w, some (.refused ⟨e, path⟩))

/-- A path whose first part is a tilde and the name of a user, read from the home of that user. -/
def atHome (w : Workspace) (path : Path) : Except SaveError Path :=
  match path.anchor, path.parts with
  | "", first :: rest =>
    match first.toList with
    | '~' :: user =>
      if hasNull first then .error .nullInPath
      else match w.homes.lookup (String.ofList user) with
        | some home =>
          let home := Path.ofString home
          .ok { home with parts := home.parts ++ rest }
        | none => .error .noHome
    | _ => .ok path
  | _, _ => .ok path

/-- Adds a file or a directory that is reached by names alone, with the directories above it. A
directory that is there already keeps what it has. -/
def add (w : Workspace) (path : String) (e : Entry) : Workspace :=
  let names := w.current ++ (Path.ofString path).parts
  match w.root.get? names, e with
  | some (.dir _ _), .dir _ _ => w
  | _, _ => { w with root := w.root.put names e }

end Workspace

end CommentTypes
