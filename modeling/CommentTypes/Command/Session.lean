import CommentTypes.Command.Request
import CommentTypes.Command.Usage
import CommentTypes.Config.Load
import CommentTypes.Run.Basic

/-!
# Sessions

Sessions: a command line carried out in a workspace, from its arguments to what is printed, logged
and written, and the exit code.
-/

namespace CommentTypes.Command

/-- How a session ends. -/
inductive ExitCode where
  /-- Nothing to complain about. -/
  | clean
  /-- Some type did not match. -/
  | mismatch
  /-- Something could not be done, and no mismatch was found. -/
  | failure
  deriving DecidableEq

/-- The number of an exit code. -/
def ExitCode.number : ExitCode → Nat
  | .clean => 0
  | .mismatch => 1
  | .failure => 2

/-- What a session leaves behind. -/
structure Outcome where
  exit : ExitCode
  /-- What is printed as the result. -/
  output : String := ""
  /-- What is said about the use of the program. -/
  complaint : String := ""
  /-- What is logged, as far as the options want it. -/
  records : List Log.Record := []
  workspace : Workspace

/-- Records of at least this level are shown. -/
def Options.level (o : Options) : Log.Level :=
  match o.verbosity with
  | 0 => .warning
  | 1 => .info
  | _ => .debug

/-- A value that counts only if it is not empty. -/
def given (value : Option String) : Option String :=
  value.filter (· ≠ "")

/-! ## Configuration -/

/-- The configuration with what the options say put in: the number of jobs replaces the one there,
inference can only be turned on, and excluded directories are added. -/
def Options.apply (o : Options) (c : Config) : Config :=
  c.override
    { infer := if o.infer then some true else none
      jobs := o.jobs
      excludeDirs :=
        if o.exclude.isEmpty then none else some (c.excludeDirs ++ o.exclude.map .string) }

/-- The configuration before the options: the one in a file, or the default. -/
def Options.baseConfig (o : Options) (w : Workspace) : Logged (Except ConfigLoadError Config) :=
  match given o.config with
  | some path => Config.load w (.ofString path)
  | none => pure (.ok {})

/-- A fault that no part of the program deals with. -/
inductive Fault where
  | config (why : ConfigLoadError)
  | blankJobs
  | blankExclude
  | nullInPath
  | noHome
  | deepDirectories
  | deepReport

/-- The fault in words. -/
def Fault.message : Fault → String
  | .config why => why.render
  | .blankJobs => "'<=' not supported between instances of 'list' and 'int'"
  | .blankExclude => "unhashable type: 'list'"
  | .nullInPath => nullInPathText
  | .noHome => "Could not determine home directory."
  | .deepDirectories => "maximum recursion depth exceeded"
  | .deepReport => "maximum recursion depth exceeded while calling a Python object"

/-- Why a session has no results. -/
inductive Failure where
  | config (why : ConfigError)
  | unhandled (why : Fault)
  | noFiles (paths : List String)

/-- The failure in words. -/
def Failure.message : Failure → String
  | .config why => why.render
  | .unhandled why => s!"Unhandled exception: {why.message}"
  | .noFiles paths => "No JavaScript files found in: " ++ Text.joinWith ", " paths

/-- The configuration of a session. What is odd about it is logged. -/
def Options.loadConfig (o : Options) (w : Workspace) : Logged (Except Failure Config) := do
  match ← o.baseConfig w with
  | .error (.invalid why) => return .error (.config why)
  | .error why => return .error (.unhandled (.config why))
  | .ok base =>
    if o.blankJobs then return .error (.unhandled .blankJobs)
    else
      let config := o.apply base
      config.warnings.forM fun warning => .say .warning .program s!"config: {warning}"
      return .ok config

/-! ## Checking -/

/-- Checks all files, of which there have to be some. -/
def Options.checkFiles (o : Options) (s : Setting) : Logged (Except Failure RunResults) := do
  match ← Run.paths s o.paths with
  | .error .nullInPath => return .error (.unhandled .nullInPath)
  | .error .deepDirectories => return .error (.unhandled .deepDirectories)
  | .ok results =>
    if results.files.isEmpty then return .error (.noFiles o.paths)
    else return .ok results

/-- Loads the configuration and checks all files. -/
def Options.check (o : Options) (g : Grammar) (w : Workspace) :
    Logged (Except Failure RunResults) := do
  match ← o.loadConfig w with
  | .error why => return .error why
  | .ok config =>
    if o.blankExclude then return .error (.unhandled .blankExclude)
    else o.checkFiles { grammar := g, workspace := w, config }

/-! ## Output -/

/-- Why a file could not be checked. -/
def failureText (r : FileResult) : String :=
  r.failure.getD ""

/-- The lines that show the result of one file. -/
def fileLines (r : FileResult) : List String :=
  match r.status with
  | .skipped => [s!"Skipped {r.file} (: skip directive)"]
  | .parseError => [s!"Error: could not check {r.file}: {failureText r}"]
  | .checked =>
    r.diagnostics.map Diagnostic.text ++
    [if r.diagnostics.isEmpty then
      s!"Checked {r.file} successfully! ({r.checks} type checks performed)"
     else s!"Found {r.errorCount} type error(s) in {r.file}"]

/-- Lines, each with a line feed after it. -/
def printed (lines : List String) : String :=
  Text.joinWith "" (lines.map (· ++ "\n"))

/-- The results in a format. -/
def Format.render (r : RunResults) : Format → String
  | .json => r.reportText
  | .gcc =>
    printed ((if r.diagnostics.isEmpty then [] else [r.gcc]) ++
      r.failures.map failureText)
  | .text => printed (r.files.flatMap fileLines)

/-- The exit code for results. -/
def exitCode (r : RunResults) : ExitCode :=
  if r.hasErrors then .mismatch else if r.hasFailures then .failure else .clean

/-- What is said when the report cannot be written. -/
def reportComplaint (destination : String) : Workspace.SaveError → String
  | .refused why => s!"Cannot write report {destination}: {why.render}"
  | .nullInPath => (Failure.unhandled .nullInPath).message
  | .noHome => (Failure.unhandled .noHome).message
  | .tooDeep => (Failure.unhandled .deepReport).message

/-- Writes a report to a path, which may start at a home. -/
def writeReport (w : Workspace) (r : RunResults) (path : Path) :
    Workspace × Except Workspace.SaveError Path :=
  match w.atHome path with
  | .error e => (w, .error e)
  | .ok path =>
    match w.save path (Text.Utf8.encode r.reportText.toList) with
    | (w, none) => (w, .ok path)
    | (w, some e) => (w, .error e)

/-- Writes the report and says so. -/
def saveReport (w : Workspace) (r : RunResults) (destination : String) :
    Logged (Workspace × Bool) :=
  match writeReport w r (.ofString destination) with
  | (w, .ok path) => do
    .say .info .program s!"Report written to {path.render}"
    return (w, true)
  | (w, .error e) => do
    .say .error .program (reportComplaint destination e)
    return (w, false)

/-- The end of a session with results: they are summed up, and the report is written if there is
to be one. -/
def Options.conclude (o : Options) (w : Workspace) (r : RunResults) :
    Logged (Workspace × ExitCode) := do
  .say .info .program r.summary
  match given o.report with
  | none => return (w, exitCode r)
  | some destination =>
    let (w, written) ← saveReport w r destination
    return (w, if written then exitCode r else .failure)

/-- What a check leaves behind, given what came out and the time it took. -/
def Options.finish (o : Options) (w : Workspace) (elapsed : String)
    (checked : Logged (Except Failure RunResults)) : Outcome :=
  let shown (records : List Log.Record) :=
    records.filter fun r => o.level.rank ≤ r.level.rank
  match checked.value with
  | .error why =>
    let failed : Log.Record := ⟨.error, .program, why.message⟩
    { exit := .failure, records := shown (checked.records ++ [failed]), workspace := w }
  | .ok results =>
    let ended := o.conclude w { results with elapsed := some elapsed }
    { exit := ended.value.2
      output := o.format.render results
      records := shown (checked.records ++ ended.records)
      workspace := ended.value.1 }

/-- Carries out a command line. -/
def run (g : Grammar) (w : Workspace) (elapsed : String) (arguments : List String) : Outcome :=
  match Request.ofArguments arguments with
  | .error e => { exit := .failure, complaint := e.text, workspace := w }
  | .ok .help => { exit := .clean, output := helpText, workspace := w }
  | .ok .version => { exit := .clean, output := versionText, workspace := w }
  | .ok (.check options) => options.finish w elapsed (options.check g w)

end CommentTypes.Command
