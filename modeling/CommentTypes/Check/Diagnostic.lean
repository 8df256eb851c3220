import CommentTypes.Json.Printer
import CommentTypes.Typing.TypeName

/-!
# Diagnostics

Diagnostics: what was expected and found at one place, and the ways to show it.
-/

namespace CommentTypes

/-- A point in a source file. Lines and columns count from one; a column of zero is not known. -/
structure Location where
  file : String := ""
  line : Int := 0
  column : Int := 0
  deriving DecidableEq

/-- The point as text, without a column that is not known. -/
def Location.render (l : Location) : String :=
  if l.column = 0 then s!"{l.file}:{l.line}" else s!"{l.file}:{l.line}:{l.column}"

/-- The site at which types were compared. -/
inductive Site where
  | declaration
  | assignment
  | argument
  deriving DecidableEq

/-- All sites in the order in which they are listed. -/
def Site.all : List Site :=
  [.declaration, .assignment, .argument]

/-- The name of a site. -/
def Site.name : Site → String
  | .declaration => "declaration"
  | .assignment => "assignment"
  | .argument => "argument"

/-- The site of a name. -/
def Site.ofName? (name : String) : Option Site :=
  Site.all.find? (·.name == name)

/-- What a site's subject is called at the head of a line. -/
def Site.title : Site → String
  | .declaration => "Variable"
  | .assignment => "Assignment to"
  | .argument => "Argument for parameter"

/-- What a site's subject is called inside a sentence. -/
def Site.label : Site → String
  | .declaration => "variable"
  | .assignment => "assignment to"
  | .argument => "argument for parameter"

/-- A mismatch: `subject` should have the type `expected` and has the type `found`. The text of the
value is given where it is a short literal, and is empty otherwise. -/
structure Diagnostic where
  location : Location
  subject : String
  expected : TypeName
  found : TypeName
  site : Site := .declaration
  value : String := ""
  deriving DecidableEq

namespace Diagnostic

/-- The found type, with the value if there is a text of it. -/
def foundText (d : Diagnostic) : String :=
  if d.value = "" then d.found else s!"{d.found} ({d.value})"

/-- The mismatch as a sentence. -/
def message (d : Diagnostic) : String :=
  s!"{d.site.label} '{d.subject}': expected {d.expected}, found {d.foundText}"

/-- The mismatch as a sentence, with its place first. -/
def gcc (d : Diagnostic) : String :=
  s!"{d.location.render}: error: {d.message} [typeMismatch]"

/-- The mismatch over three lines. -/
def text (d : Diagnostic) : String :=
  s!"Type mismatch at {d.location.render}:\n" ++
  s!"  {d.site.title}: {d.subject}\n" ++
  s!"  Expected: {d.expected}, Found: {d.foundText}"

/-- The mismatch as an entry of a report. -/
def entry (d : Diagnostic) : Json :=
  .obj [("loc", .str d.location.render), ("variable", .str d.subject),
    ("expected", .str d.expected), ("found", .str d.found)]

end Diagnostic

end CommentTypes
