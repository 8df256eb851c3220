import CommentTypes.Command.Options
import CommentTypes.Text.Newline

/-!
# Usage

The texts that explain the command line.
-/

namespace CommentTypes.Command

/-- The name of the program. -/
def programName : String := "jstype"

/-- The version of the program. -/
def programVersion : String := "0.1.0"

/-- The version as it is shown. -/
def versionText : String :=
  s!"{programName} {programVersion}\n"

/-- How the program is called. -/
def usageLines : List String :=
  ["usage: jstype [-h] [--version] [-v] [--infer] [-j N] [-c FILE]",
   "              [-f \x7btext,json,gcc\x7d] [--report FILE] [--exclude DIR]",
   "              PATH [PATH ...]"]

/-- All that the program says about itself. -/
def helpLines : List String :=
  usageLines ++
  ["",
   "jstype: a lightweight type-checker for JavaScript.",
   "",
   "Checks values against types written in comments:",
   "  let n /*: number */ = 42;",
   "  /** @type \x7bstring[]\x7d */ const names = [];",
   "",
   "positional arguments:",
   "  PATH                  JavaScript files or directories to check.",
   "",
   "options:",
   "  -h, --help            show this help message and exit",
   "  --version             show program's version number and exit",
   "  -v, --verbose         Increase verbosity (-v info, -vv debug).",
   "  --infer               Track unannotated declarations by their inferred type.",
   "  -j N, --jobs N        Check N files in parallel (default: 1).",
   "  -c FILE, --config FILE",
   "                        JSON configuration file.",
   "  -f \x7btext,json,gcc\x7d, --format \x7btext,json,gcc\x7d",
   "                        Output format (default: text).",
   "  --report FILE         Also write a JSON report to FILE.",
   "  --exclude DIR         Directory name to skip during discovery (repeatable).",
   "",
   "examples:",
   "  jstype app.js",
   "  jstype src/ --infer --jobs 4",
   "  jstype src/ --format json --report out.json"]

/-- The help as it is shown. -/
def helpText : String :=
  Text.unlines helpLines ++ "\n"

/-- An error as it is shown, after the usage. -/
def UsageError.text (e : UsageError) : String :=
  Text.unlines (usageLines ++ [s!"{programName}: error: {e.message}"]) ++ "\n"

end CommentTypes.Command
