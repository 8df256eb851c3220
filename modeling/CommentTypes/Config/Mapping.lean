import CommentTypes.Config.Basic
import CommentTypes.Config.Error

/-!
# Configurations in JSON objects

Configurations read from the fields of a JSON object. Unknown names are refused first, all of them
together; then the values are looked at, one option after the other.
-/

namespace CommentTypes.Config

/-- The names of the options. -/
def optionNames : List Text.Loose :=
  ["infer", "extensions", "exclude_dirs", "jobs"]

/-- The names that are no options, in ascending order. -/
def unknownNames (fields : Json.Fields) : List Text.Loose :=
  ((fields.map Prod.fst).filter (!optionNames.contains ·)).mergeSort Text.Loose.atMost

/-- The value of an option, if it is given and is what `read?` takes. -/
def optionValue {α : Type} (fields : Json.Fields) (name : String) (default : α)
    (read? : Json → Option α) (fault : ConfigFault) : Except ConfigFault α :=
  match fields.lookup (.string name) with
  | none => .ok default
  | some v =>
    match read? v with
    | some a => .ok a
    | none => .error fault

/-- A value that is a truth value. -/
def bool? : Json → Option Bool
  | .bool b => some b
  | _ => none

/-- A value that is an integer. -/
def int? : Json → Option Int
  | .int n => some n
  | _ => none

/-- A value that is a text. -/
def text? : Json → Option Text.Loose
  | .str s => some s
  | _ => none

/-- A value that is a list of texts. -/
def textList? : Json → Option (List Text.Loose)
  | .arr items => items.mapM text?
  | _ => none

/-- The configuration that the fields give, with defaults for what they leave out. -/
def ofFields (fields : Json.Fields) : Except ConfigFault Config := do
  let unknown := unknownNames fields
  if !unknown.isEmpty then throw (.unknownOptions unknown)
  let base : Config := {}
  let infer ← optionValue fields "infer" base.infer bool? .inferNotBool
  let jobs ← optionValue fields "jobs" base.jobs int? .jobsNotInteger
  let extensions ←
    optionValue fields "extensions" base.extensions textList? (.notTexts "extensions")
  let excludeDirs ←
    optionValue fields "exclude_dirs" base.excludeDirs textList? (.notTexts "exclude_dirs")
  return { infer, extensions, excludeDirs, jobs }

end CommentTypes.Config
