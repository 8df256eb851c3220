import CommentTypes.Text.Join

/-!
# Paths

A path names its parts from left to right, with a slash between each two. In normal form it
has no empty part and no part `.`; a part `..` stays, since what it leads to is for the file system
to say.
-/

namespace CommentTypes

/-- The pieces of a path between its slashes. -/
def pathParts (path : String) : List String :=
  (path.toList.splitOn '/').map String.ofList

/-- The path has a null character, which no name has. -/
def hasNull (path : String) : Bool :=
  path.toList.contains '\x00'

/-- The length, in bytes, that a path stays below. -/
def pathLimit : Nat := 4096

/-- The part leads nowhere else. -/
def isIdlePart (part : String) : Bool :=
  part == "" || part == "."

/-- A path in normal form. The anchor is one slash or two for a path from the root, and empty for
one from the current directory. -/
structure Path where
  anchor : String := ""
  parts : List String := []
  deriving DecidableEq

namespace Path

/-- The slashes at the start of a path, as far as they matter: two are kept, and more than two are
one. -/
def anchorOf : List Char → String
  | '/' :: '/' :: '/' :: _ => "/"
  | '/' :: '/' :: _ => "//"
  | '/' :: _ => "/"
  | _ => ""

/-- The normal form of a path. -/
def ofString (path : String) : Path :=
  { anchor := anchorOf path.toList
    parts := (pathParts path).filter (!isIdlePart ·) }

/-- The path as text. Without any part it is the current directory. -/
def render (p : Path) : String :=
  if p.anchor = "" ∧ p.parts = [] then "." else p.anchor ++ Text.joinWith "/" p.parts

/-- The path has a null character. -/
def hasNull (p : Path) : Bool :=
  CommentTypes.hasNull p.render

/-- The directory in which a path stands. -/
def parent (p : Path) : Path :=
  { p with parts := p.parts.dropLast }

end Path

/-- The path of an entry of a directory that is given as `directory`. -/
def joinPath (directory name : String) : String :=
  if directory = "" || directory.toList.getLast? == some '/' then directory ++ name
  else directory ++ "/" ++ name

end CommentTypes
