import CommentTypes.Text.Join

/-!
# Switches

Each switch has a long form, and some have a letter. Some take a value.
-/

namespace CommentTypes.Command

/-- A switch. -/
inductive Switch where
  | help
  | version
  | verbose
  | infer
  | jobs
  | config
  | format
  | report
  | exclude
  deriving DecidableEq

namespace Switch

/-- All switches, in the order in which they are explained. -/
def all : List Switch :=
  [.help, .version, .verbose, .infer, .jobs, .config, .format, .report, .exclude]

/-- The letter of a switch that has a short form. -/
def letter? : Switch → Option Char
  | .help => some 'h'
  | .verbose => some 'v'
  | .jobs => some 'j'
  | .config => some 'c'
  | .format => some 'f'
  | _ => none

/-- The long form of a switch. -/
def long : Switch → String
  | .help => "--help"
  | .version => "--version"
  | .verbose => "--verbose"
  | .infer => "--infer"
  | .jobs => "--jobs"
  | .config => "--config"
  | .format => "--format"
  | .report => "--report"
  | .exclude => "--exclude"

/-- The short form, if there is one, and the long form. -/
def names (s : Switch) : List String :=
  (s.letter?.map fun c => String.ofList ['-', c]).toList ++ [s.long]

/-- The name of a switch in messages. -/
def label (s : Switch) : String :=
  Text.joinWith "/" s.names

/-- A value belongs to the switch. -/
def takesValue : Switch → Bool
  | .jobs | .config | .format | .report | .exclude => true
  | _ => false

/-- The switch with a form. -/
def ofName? (name : String) : Option Switch :=
  all.find? (·.names.contains name)

/-- The switch with a letter. -/
def ofLetter? (c : Char) : Option Switch :=
  all.find? (·.letter? == some c)

/-- The switches whose long form begins in a way. -/
def beginningWith (start : List Char) : List Switch :=
  all.filter fun s => start.isPrefixOf s.long.toList

end Switch

end CommentTypes.Command
