import CommentTypes.Command.Token

/-!
# Reading a command line

Command lines read from left to right. Switches take effect one by one, so that help is given even
if what follows is wrong. The first run of plain arguments holds the paths; a later one is not
understood.
-/

namespace CommentTypes.Command

/-- A switch with its value, if it takes one. -/
inductive Order where
  | flag (s : Switch)
  | value (s : Switch) (text : String)
  /-- A switch that takes a value and has only the divider for it. -/
  | blank (s : Switch)
  deriving DecidableEq

/-- The switches of one argument. The value of the one that is `awaiting` is the next argument. -/
structure Cluster where
  orders : List Order := []
  awaiting : Option Switch := none
  deriving DecidableEq

namespace Cluster

/-- A switch with nothing attached. -/
def bare (s : Switch) : Cluster :=
  if s.takesValue then { awaiting := some s } else { orders := [.flag s] }

/-- A switch with a value attached. -/
def assigned (s : Switch) (value : String) : Except UsageError Cluster :=
  if !s.takesValue then .error (.needlessValue s value)
  else .ok { orders := [if value = "--" then .blank s else .value s value] }

/-- A switch given by its letter, with what comes after it: its value, or more letters. -/
def letters (s : Switch) : List Char → Except UsageError Cluster
  | [] => .ok (bare s)
  | c :: rest =>
    match s.takesValue, Switch.ofLetter? c with
    | false, some next => do
      let more ← letters next rest
      return { more with orders := .flag s :: more.orders }
    | _, _ => assigned s (String.ofList (c :: rest))

/-- The switches that stand in an argument. -/
def ofSwitch (s : Switch) : Attachment → Except UsageError Cluster
  | .nothing => .ok (bare s)
  | .toLong value => assigned s value
  | .toLetter [] => assigned s ""
  | .toLetter text => letters s text

end Cluster

/-- Why reading ends early. -/
inductive Stop where
  | request (r : Request)
  | error (e : UsageError)
  deriving DecidableEq

/-- What has been read: the options, the paths once there are any, the plain arguments since the
last switch, and what was not understood. -/
structure Reading where
  options : Options := {}
  paths : Option (List String) := none
  run : List String := []
  extras : List String := []

namespace Reading

/-- Carries out a switch. -/
def obey (o : Options) : Order → Except Stop Options
  | .flag .help => .error (.request .help)
  | .flag .version => .error (.request .version)
  | .flag .verbose => .ok { o with verbosity := o.verbosity + 1 }
  | .flag .infer => .ok { o with infer := true }
  | .value .jobs text =>
    match Text.integer? text with
    | some n => .ok { o with jobs := some n, blankJobs := false }
    | none => .error (.error (.badInteger .jobs text))
  | .value .format text =>
    match Format.ofName? text with
    | some f => .ok { o with format := f }
    | none => .error (.error (.badFormat .format text))
  | .value .config text => .ok { o with config := some text }
  | .value .report text => .ok { o with report := some text }
  | .value .exclude text => .ok { o with exclude := o.exclude ++ [text] }
  | .blank .jobs => .ok { o with jobs := none, blankJobs := true }
  | .blank .format => .ok { o with format := .text }
  | .blank .config => .ok { o with config := none }
  | .blank .report => .ok { o with report := none }
  | .blank .exclude => .ok { o with blankExclude := true }
  | .flag _ | .value _ _ | .blank _ => .ok o

/-- Ends a run of plain arguments. The first run with more than a divider is that of the paths,
without the divider. -/
def endRun (r : Reading) : Reading :=
  if r.paths.isNone && r.run.erase "--" ≠ [] then
    { r with paths := some (r.run.erase "--"), run := [] }
  else { r with extras := r.extras ++ r.run, run := [] }

/-- Carries out the switches of one argument. -/
def obeyAll (r : Reading) (orders : List Order) : Except Stop Reading := do
  return { r with options := ← orders.foldlM obey r.options }

/-- Reads the arguments one after the other. -/
def readTokens (r : Reading) : List Token → Except Stop Reading
  | [] => .ok r.endRun
  | .plain text :: rest => readTokens { r with run := r.run ++ [text] } rest
  | .divider :: rest => readTokens { r with run := r.run ++ ["--"] } rest
  | .unknown text :: rest =>
    let r := r.endRun
    readTokens { r with extras := r.extras ++ [text] } rest
  | .switch s attached :: rest => do
    let r := r.endRun
    let cluster ← (Cluster.ofSwitch s attached).mapError .error
    match cluster.awaiting, rest with
    | none, rest => readTokens (← r.obeyAll cluster.orders) rest
    | some next, .plain text :: rest =>
      readTokens (← r.obeyAll (cluster.orders ++ [.value next text])) rest
    | some next, _ => .error (.error (.missingValue next))

end Reading

/-- The options read, if paths were given and all was understood. -/
def Reading.options? (r : Reading) : Except UsageError Options :=
  match r.paths, r.extras with
  | none, _ => .error .missingPaths
  | some paths, [] => .ok { r.options with paths }
  | some _, extras => .error (.unrecognized extras)

/-- What arguments ask for. -/
def Request.ofArguments (arguments : List String) : Except UsageError Request := do
  let tokens ← Token.ofArguments arguments
  match Reading.readTokens {} tokens with
  | .ok r => return .check (← r.options?)
  | .error (.request r) => .ok r
  | .error (.error e) => .error e

end CommentTypes.Command
