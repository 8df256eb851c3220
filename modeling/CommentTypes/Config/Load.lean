import CommentTypes.Config.Mapping
import CommentTypes.Log

/-!
# Configurations in files

A file with a configuration holds one JSON object. What keeps it from being read is told apart from
what is wrong with the configuration in it.
-/

namespace CommentTypes

/-- Why no configuration comes from a file. Besides the faults of configurations there are those
of reading, which are not explained further. -/
inductive ConfigLoadError where
  | invalid (why : ConfigError)
  | nullInPath
  | refused (why : Workspace.PathError)
  | undecodable (why : Text.Utf8.DecodeError)
  | overLimit (why : Json.ParseError)

/-- The error as text. -/
def ConfigLoadError.render : ConfigLoadError → String
  | .invalid why => why.render
  | .nullInPath => nullInPathText
  | .refused why => why.render
  | .undecodable why => why.render
  | .overLimit why => why.flaw.message

namespace Config

/-- The JSON value in a file. -/
def readValue (w : Workspace) (path : Path) : Except ConfigLoadError Json :=
  match w.readText path with
  | .error .nullInPath => .error .nullInPath
  | .error (.refused .notFound) => .error (.invalid ⟨path.render, .notFound⟩)
  | .error (.refused why) => .error (.refused ⟨why, path⟩)
  | .error (.undecodable why) => .error (.undecodable why)
  | .ok text =>
    match Json.parse text w.limits.nesting with
    | .ok v => .ok v
    | .error why =>
      if why.flaw.isLimit then .error (.overLimit why)
      else .error (.invalid ⟨path.render, .badJson why⟩)

/-- The configuration in a file. -/
def load (w : Workspace) (path : Path) : Logged (Except ConfigLoadError Config) :=
  match readValue w path with
  | .error e => pure (.error e)
  | .ok (.obj fields) => do
    .say .info .config s!"Loaded configuration from {path.render}"
    return (ofFields fields).mapError fun fault => .invalid ⟨path.render, fault⟩
  | .ok _ => pure (.error (.invalid ⟨path.render, .notObject⟩))

end Config

end CommentTypes
