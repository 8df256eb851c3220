import CommentTypes.Run.Results
import CommentTypes.Tree.Grammar
import CommentTypes.Workspace.Discovery

/-!
# Runs

Runs over many files. Each file is checked on its own: what is learned in one is not known in
another, and a file that cannot be read or parsed fails alone. Only a path that no file can have
and directories that go too deep break off the whole run.
-/

namespace CommentTypes

/-- What a run works with. -/
structure Setting where
  grammar : Grammar
  workspace : Workspace
  config : Config := {}

namespace Run

/-- Why a file is not checked: it cannot be read or parsed, or its path has a null character. -/
inductive Obstacle where
  | source (why : SourceError)
  | nullInPath
  deriving DecidableEq

/-- The text of a source file that is shown under some name. -/
def readSource (w : Workspace) (path shown : String) : Except Obstacle String :=
  match w.readText (.ofString path) with
  | .ok text => .ok text
  | .error .nullInPath => .error .nullInPath
  | .error (.refused .notFound) => .error (.source (.unreadable shown .notFound))
  | .error (.refused why) => .error (.source (.unreadable shown (.refused why)))
  | .error (.undecodable _) => .error (.source (.unreadable shown .notUtf8))

/-- Checks a file that is shown under some name. -/
def checkPath (s : Setting) (path shown : String) : Logged (Except Obstacle Check.Outcome) :=
  match readSource s.workspace path shown with
  | .error e => pure (.error e)
  | .ok text => do
    return (← Check.text s.config.infer shown text (s.grammar text)).mapError .source

/-- Why a run is broken off. -/
inductive Broken where
  | nullInPath
  | deepDirectories
  deriving DecidableEq

/-- Checks a file. One that cannot be read or parsed has a result that says so. -/
def checkOne (s : Setting) (path : String) : Logged (Except Broken FileResult) := do
  .say .info .runner s!"Checking {path}"
  match ← checkPath s path path with
  | .ok outcome => return .ok outcome.result
  | .error .nullInPath => return .error .nullInPath
  | .error (.source e) =>
    .say .warning .runner s!"Could not check {path}: {e.render}"
    return .ok { file := path, status := .parseError, failure := some e.render }

/-- Checks files one after the other, up to the first that breaks off the run. -/
def inTurn (s : Setting) : List String → Logged (Except Broken (List FileResult))
  | [] => pure (.ok [])
  | path :: rest => do
    match ← checkOne s path with
    | .error e => return .error e
    | .ok r => return (← inTurn s rest).map (r :: ·)

/-- Checks all files, and then looks for the first that breaks off the run. -/
def together (s : Setting) (files : List String) : Logged (Except Broken (List FileResult)) := do
  let results ← files.mapM (checkOne s)
  return results.mapM fun r => r

/-- The number of workers for some files: no more than there are files, and at least one. -/
def workersFor (c : Config) (files : List String) : Nat :=
  min c.workers (max files.length 1)

/-- The results of some files, counted. -/
def tally (workers : Nat) (files : List FileResult) : RunResults :=
  let results : RunResults := { files }
  { results with
    stats := some
      { workers
        files := files.length
        checks := results.totalChecks
        errors := results.errorCount } }

/-- Checks files, one after the other or with several workers. -/
def files (s : Setting) (files : List String) : Logged (Except Broken RunResults) := do
  let workers := workersFor s.config files
  let results ←
    if workers ≤ 1 then inTurn s files
    else do
      .say .debug .runner s!"Checking {files.length} file(s) on {workers} workers"
      together s files
  return results.map (tally workers)

/-- The files that paths stand for. -/
def discover (s : Setting) (paths : List String) : Logged (Except Broken (List String)) := do
  match s.workspace.discover? s.config paths with
  | none => return .error .deepDirectories
  | some found =>
    .say .debug .runner s!"Discovered {found.length} file(s)"
    return .ok found

/-- Checks the files that paths stand for. -/
def paths (s : Setting) (paths : List String) : Logged (Except Broken RunResults) := do
  match ← discover s paths with
  | .error e => return .error e
  | .ok found => files s found

end Run

end CommentTypes
