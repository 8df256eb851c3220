import CommentTypes.Config.Mapping

/-!
# Unchecked configurations

Configurations over which values of any kind are laid, or which are such a value. Nothing is checked
when a value is put in; it shows only when the number of jobs is compared or the start of an
extension is looked at.
-/

namespace CommentTypes

/-- A configuration with values of any kind. -/
structure UncheckedConfig where
  infer : Json
  extensions : List Json
  excludeDirs : List Json
  jobs : Json

/-- What cannot be done with a value. -/
inductive ValueFault where
  /-- It has no place here, or cannot be listed or compared. -/
  | unfit
  /-- It is no text, and so has no start. -/
  | notText
  deriving DecidableEq

/-- What a value lists: a text its characters, and an object the names of its fields. -/
def Json.listed? : Json → Option (List Json)
  | .str t => some (t.points.map fun p => .str (.ofPoints [p]))
  | .arr items => some items
  | .obj fields => some (fields.map fun f => .str f.1)
  | _ => none

/-- Why a value is no configuration: a fault in what it says, or what it is. -/
inductive ConfigValueError where
  | invalid (fault : ConfigFault)
  | unfit

/-- The configuration that a value of any kind gives. What lists texts and is no object gives names
without values: unknown ones are told, and known ones have no value to take. -/
def Config.ofValue : Json → Except ConfigValueError Config
  | .obj fields => (ofFields fields).mapError .invalid
  | v =>
    match v.listed?.bind (·.mapM text?) with
    | none => .error .unfit
    | some [] => .ok {}
    | some names =>
      match unknownNames (names.eraseDups.map fun name => (name, .null)) with
      | [] => .error .unfit
      | unknown => .error (.invalid (.unknownOptions unknown))

namespace UncheckedConfig

/-- A configuration, as values. -/
def ofConfig (c : Config) : UncheckedConfig :=
  { infer := .bool c.infer
    extensions := c.extensions.map .str
    excludeDirs := c.excludeDirs.map .str
    jobs := .int c.jobs }

/-- Puts in the value of one field. A null says nothing. -/
def put? (c : UncheckedConfig) : Text.Loose × Json → Option UncheckedConfig
  | (_, .null) => some c
  | (.string "infer", v) => some { c with infer := v }
  | (.string "jobs", v) => some { c with jobs := v }
  | (.string "extensions", v) => v.listed?.map fun l => { c with extensions := l }
  | (.string "exclude_dirs", v) => v.listed?.map fun l => { c with excludeDirs := l }
  | _ => none

/-- Lays the fields of an object over a configuration. -/
def override (c : UncheckedConfig) : Json → Except ValueFault UncheckedConfig
  | .obj fields =>
    match fields.foldlM put? c with
    | some c => .ok c
    | none => .error .unfit
  | _ => .error .unfit

/-- The number of jobs is above zero. A truth value counts as zero or one. -/
def hasJobs (c : UncheckedConfig) : Except ValueFault Bool :=
  match c.jobs with
  | .int n => .ok (0 < n)
  | .bool b => .ok b
  | _ => .error .unfit

/-- The number of workers. -/
def workers (c : UncheckedConfig) : Except ValueFault Json := do
  return if ← c.hasJobs then c.jobs else .int 1

/-- An extension as a text. -/
def extensionText : Json → Except ValueFault Text.Loose
  | .str s => .ok s
  | _ => .error .notText

/-- What is odd about a configuration, in words. -/
def warnings (c : UncheckedConfig) : Except ValueFault (List String) := do
  let jobs : Int := if ← c.hasJobs then 1 else 0
  let extensions ← c.extensions.mapM extensionText
  return Config.warnings { extensions, jobs }

end UncheckedConfig

end CommentTypes
