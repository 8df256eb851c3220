import CommentTypes.Command.Switch
import CommentTypes.Text.Quoted

/-!
# Options

What a command line asks for, and what can be wrong with it.
-/

namespace CommentTypes.Command

/-- How results are shown. -/
inductive Format where
  | text
  | json
  | gcc
  deriving DecidableEq

/-- All formats, in the order in which they are listed. -/
def Format.all : List Format :=
  [.text, .json, .gcc]

/-- The name of a format. -/
def Format.name : Format → String
  | .text => "text"
  | .json => "json"
  | .gcc => "gcc"

/-- The format with a name. -/
def Format.ofName? (name : String) : Option Format :=
  Format.all.find? (·.name == name)

/-- The options of a check. -/
structure Options where
  verbosity : Nat := 0
  infer : Bool := false
  jobs : Option Int := none
  /-- Jobs were asked for last without a number. -/
  blankJobs : Bool := false
  config : Option String := none
  format : Format := .text
  report : Option String := none
  exclude : List String := []
  /-- A directory to exclude has no name. -/
  blankExclude : Bool := false
  paths : List String := []
  deriving DecidableEq

/-- What to do. -/
inductive Request where
  | help
  | version
  | check (options : Options)
  deriving DecidableEq

/-- What is wrong with a command line. -/
inductive UsageError where
  | missingPaths
  | unrecognized (arguments : List String)
  | ambiguous (argument : String) (matching : List Switch)
  | missingValue (switch : Switch)
  | needlessValue (switch : Switch) (value : String)
  | badInteger (switch : Switch) (value : String)
  | badFormat (switch : Switch) (value : String)
  deriving DecidableEq

/-- The error in words. -/
def UsageError.message : UsageError → String
  | .missingPaths => "the following arguments are required: PATH"
  | .unrecognized arguments => "unrecognized arguments: " ++ Text.joinWith " " arguments
  | .ambiguous argument matching =>
    s!"ambiguous option: {argument} could match " ++ Text.joinWith ", " (matching.map Switch.long)
  | .missingValue s => s!"argument {s.label}: expected one argument"
  | .needlessValue s value =>
    s!"argument {s.label}: ignored explicit argument {Text.quoted value}"
  | .badInteger s value => s!"argument {s.label}: invalid int value: {Text.quoted value}"
  | .badFormat s value =>
    let choices := Text.joinWith ", " (Format.all.map fun f => Text.quoted f.name)
    s!"argument {s.label}: invalid choice: {Text.quoted value} (choose from {choices})"

end CommentTypes.Command
