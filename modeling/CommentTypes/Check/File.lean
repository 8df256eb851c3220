import CommentTypes.Check.Step

/-!
# The check of a file

The check of one file, and its outcome.
-/

namespace CommentTypes

/-- How the check of a file ended. -/
inductive Status where
  | parseError
  | skipped
  | checked
  deriving DecidableEq

/-- All statuses in the order in which they are listed. -/
def Status.all : List Status :=
  [.parseError, .skipped, .checked]

/-- The name of a status. -/
def Status.name : Status → String
  | .parseError => "parse_error"
  | .skipped => "skipped"
  | .checked => "checked"

/-- The outcome for one file: the mismatches in the order of their discovery, the number of
comparisons, and what went wrong if the file could not be checked. -/
structure FileResult where
  file : String
  status : Status
  diagnostics : List Diagnostic := []
  checks : Nat := 0
  failure : Option String := none
  deriving DecidableEq

namespace FileResult

/-- The number of mismatches. -/
def errorCount (r : FileResult) : Nat :=
  r.diagnostics.length

/-- The file could be checked and has no mismatch. -/
def ok (r : FileResult) : Bool :=
  r.status ≠ .parseError && r.diagnostics.isEmpty

/-- The entry of the file in a report. -/
def entry (r : FileResult) : Json :=
  .obj [("file", .str r.file), ("errors", .arr (r.diagnostics.map Diagnostic.entry))]

end FileResult

namespace Check

/-- The outcome of a check, with what was known of variables and functions at its end. -/
structure Outcome where
  result : FileResult
  bindings : Tracker := {}
  signatures : Registry := {}

/-- The walk over all nodes of a file. -/
def walkSource (infer : Bool) (s : Source) (signatures : Registry) : State :=
  walk { source := s, infer, directives := .ofSource s, signatures } {} s.root.cursors

/-- Checks a file. -/
def source (infer : Bool) (s : Source) : Logged Outcome :=
  let directives := Directives.ofSource s
  if directives.skipped then do
    .say .info .checker s!"Skipping {s.path} (: skip directive)"
    return { result := { file := s.path, status := .skipped } }
  else do
    if let some line := directives.cutoff then
      .say .debug .checker s!"{s.path}: checking stops after line {line}"
    let signatures ← Registry.collect s.root
    let final := walkSource infer s signatures
    ⟨(), final.records⟩
    return {
      result :=
        { file := s.path, status := .checked, diagnostics := final.diagnostics
          checks := final.checks }
      bindings := final.bindings
      signatures }

/-- Checks a text with its syntax tree. -/
def text (infer : Bool) (path text : String) (root : Node) :
    Logged (Except SourceError Outcome) := do
  match ← Source.load path text root with
  | .error e => return .error e
  | .ok s => return .ok (← source infer s)

end Check

end CommentTypes
