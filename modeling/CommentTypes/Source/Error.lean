import CommentTypes.Problem
import CommentTypes.Workspace.SystemError

/-!
# Errors of source files

Reasons why a source file cannot be checked.
-/

namespace CommentTypes

/-- Why a file cannot be read. -/
inductive ReadFault where
  | notFound
  | notUtf8
  | refused (why : SystemError)
  deriving DecidableEq

/-- Why a file cannot be read, in words. -/
def ReadFault.message : ReadFault → String
  | .notFound => "file not found"
  | .notUtf8 => "file is not valid UTF-8"
  | .refused why => s!"cannot read file: {why.text}"

/-- What a syntax error is called. -/
def syntaxErrorText : String := "syntax error"

/-- A file that cannot be read, or one whose tree has a syntax error. -/
inductive SourceError where
  | unreadable (path : String) (why : ReadFault)
  | malformed (path : String) (missing : Bool) (line column : Nat) (snippet : String)
  deriving DecidableEq

namespace SourceError

/-- The error as a message with its place. -/
def problem : SourceError → Problem
  | .unreadable path why => { message := why.message, path }
  | .malformed path missing line column _ =>
    let what := if missing then "missing token" else "unexpected input"
    { message := s!"{syntaxErrorText} ({what})", path, line := some line, column := some column }

/-- The error as text. -/
def render (e : SourceError) : String :=
  e.problem.render

end SourceError

end CommentTypes
