import CommentTypes.Json.Reader
import CommentTypes.Problem
import CommentTypes.Workspace.Basic

/-!
# Errors of configurations

Reasons why a configuration cannot be used.
-/

namespace CommentTypes

/-- What is wrong with a configuration. -/
inductive ConfigFault where
  | unknownOptions (names : List Text.Loose)
  | inferNotBool
  | jobsNotInteger
  | notTexts (option : String)
  | notFound
  | badJson (why : Json.ParseError)
  | notObject

/-- The fault in words. -/
def ConfigFault.message : ConfigFault → String
  | .unknownOptions names =>
    "unknown option(s): " ++ Text.joinWith ", " (names.map Text.Loose.shown)
  | .inferNotBool => "'infer' must be true or false"
  | .jobsNotInteger => "'jobs' must be an integer"
  | .notTexts option => s!"'{option}' must be a list of strings"
  | .notFound => "configuration file not found"
  | .badJson why => s!"invalid JSON: {why.flaw.message}"
  | .notObject => "configuration must be a JSON object"

/-- A fault of the configuration with a path. -/
structure ConfigError where
  path : String
  fault : ConfigFault

namespace ConfigError

/-- The error as a message with its place. Only JSON that cannot be read has a line. -/
def problem (e : ConfigError) : Problem :=
  match e.fault with
  | .badJson why =>
    { message := e.fault.message, path := e.path, line := some why.line, column := some why.column }
  | fault => { message := fault.message, path := e.path }

/-- The error as text. -/
def render (e : ConfigError) : String :=
  e.problem.render

end ConfigError

end CommentTypes
