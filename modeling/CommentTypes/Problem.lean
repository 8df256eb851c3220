/-!
# Problems

Problems that keep a file or a configuration from being used: a message and the place it concerns.
-/

namespace CommentTypes

/-- A message about a path, and about a line and a column there if they are known. -/
structure Problem where
  message : String
  path : String := ""
  line : Option Int := none
  column : Option Int := none
  deriving DecidableEq

namespace Problem

/-- The place, as far as it is known. Nothing is said of a place without a path, and nothing of a
column without a line. -/
def location (p : Problem) : String :=
  if p.path = "" then ""
  else match p.line, p.column with
    | none, _ => p.path
    | some line, none => s!"{p.path}:{line}"
    | some line, some column => s!"{p.path}:{line}:{column}"

/-- The place, if there is one, and the message. -/
def render (p : Problem) : String :=
  if p.location = "" then p.message else s!"{p.location}: {p.message}"

end Problem

end CommentTypes
