import CommentTypes.Check.File
import CommentTypes.Total

/-!
# Results of a run

The results of a run: one for each file, in the order of the files, and what they add up to.
-/

namespace CommentTypes

/-- What is counted during a run. -/
structure RunStats where
  files : Nat
  checks : Nat
  errors : Nat
  workers : Nat

/-- The results of a run, with the time it took, in words, if it was taken. -/
structure RunResults where
  files : List FileResult := []
  stats : Option RunStats := none
  elapsed : Option String := none

namespace RunResults

/-- All mismatches, file by file. -/
def diagnostics (r : RunResults) : List Diagnostic :=
  r.files.flatMap FileResult.diagnostics

/-- The number of comparisons. -/
def totalChecks (r : RunResults) : Nat :=
  total FileResult.checks r.files

/-- The number of mismatches. -/
def errorCount (r : RunResults) : Nat :=
  total FileResult.errorCount r.files

/-- There is a mismatch. -/
def hasErrors (r : RunResults) : Bool :=
  0 < r.errorCount

/-- The results of files that could not be checked. -/
def failures (r : RunResults) : List FileResult :=
  r.files.filter (·.status = .parseError)

/-- A file could not be checked. -/
def hasFailures (r : RunResults) : Bool :=
  !r.failures.isEmpty

/-- The results of files that were skipped. -/
def skipped (r : RunResults) : List FileResult :=
  r.files.filter (·.status = .skipped)

/-- The mismatches in a file. -/
def byFile (r : RunResults) (file : String) : List Diagnostic :=
  r.diagnostics.filter (·.location.file = file)

/-- The report: an entry for each file with a mismatch. -/
def report (r : RunResults) : List Json :=
  (r.files.filter (!·.diagnostics.isEmpty)).map FileResult.entry

/-- The report as text over several lines. -/
def reportText (r : RunResults) : String :=
  (Json.arr r.report).pretty ++ "\n"

/-- All mismatches one below the other, each with its place first. -/
def gcc (r : RunResults) : String :=
  Text.unlines (r.diagnostics.map Diagnostic.gcc)

/-- The totals in words. -/
def summary (r : RunResults) : String :=
  Text.unlines <|
    [s!"Checked {r.files.length} file(s): {r.totalChecks} checks, {r.errorCount} type error(s)"] ++
    (if r.skipped.isEmpty then [] else [s!"  skipped: {r.skipped.length}"]) ++
    (if r.failures.isEmpty then [] else [s!"  failed to parse: {r.failures.length}"]) ++
    (r.elapsed.map fun time => s!"  elapsed: {time}").toList

end RunResults

end CommentTypes
