import CommentTypes.Json.Value
import CommentTypes.Text.Quoted

/-!
# Configurations

What can be set for a run, what is odd about it, and how later values take the place of earlier
ones.
-/

namespace CommentTypes

/-- What can be set for a run. -/
structure Config where
  /-- Variables without an annotation are tracked by the type found. -/
  infer : Bool := false
  /-- The ends of the names of files that are taken from a directory. -/
  extensions : List Text.Loose := [".js", ".jsx", ".mjs", ".cjs"]
  /-- The names of directories that are not entered. -/
  excludeDirs : List Text.Loose :=
    ["node_modules", "bower_components", "dist", "build", "coverage"]
  /-- The number of files to check at a time. -/
  jobs : Int := 1
  deriving DecidableEq

namespace Config

/-- What is odd about a configuration, in words. -/
def warnings (c : Config) : List String :=
  (if c.jobs ≤ 0 then ["jobs must be positive; using 1"] else []) ++
  (if c.extensions.isEmpty then ["no file extensions configured; directories yield no files"]
    else []) ++
  (c.extensions.filter (·.points.head? ≠ some (.char '.'))).map fun e =>
    s!"extension {e.quoted} does not start with '.'"

/-- The number of workers. -/
def workers (c : Config) : Nat :=
  if 0 < c.jobs then c.jobs.toNat else 1

/-- The configuration as the fields of an object. -/
def fields (c : Config) : Json.Fields :=
  [("infer", .bool c.infer), ("extensions", .arr (c.extensions.map .str)),
    ("exclude_dirs", .arr (c.excludeDirs.map .str)), ("jobs", .int c.jobs)]

end Config

/-- Values that take the place of those of a configuration. -/
structure Overrides where
  infer : Option Bool := none
  extensions : Option (List Text.Loose) := none
  excludeDirs : Option (List Text.Loose) := none
  jobs : Option Int := none

/-- The configuration with the values that are given put in. -/
def Config.override (c : Config) (o : Overrides) : Config :=
  { infer := o.infer.getD c.infer
    extensions := o.extensions.getD c.extensions
    excludeDirs := o.excludeDirs.getD c.excludeDirs
    jobs := o.jobs.getD c.jobs }

end CommentTypes
