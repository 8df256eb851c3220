/-!
# Faults of the file system

The faults that reading and writing can meet, with their numbers and their words.
-/

namespace CommentTypes

/-- Why the file system refuses. -/
inductive SystemError where
  | notFound
  | denied
  | alreadyExists
  | notDirectory
  | isDirectory
  | nameTooLong
  deriving DecidableEq

namespace SystemError

/-- The number of a fault. -/
def number : SystemError → Nat
  | .notFound => 2
  | .denied => 13
  | .alreadyExists => 17
  | .notDirectory => 20
  | .isDirectory => 21
  | .nameTooLong => 36

/-- A fault in words. -/
def text : SystemError → String
  | .notFound => "No such file or directory"
  | .denied => "Permission denied"
  | .alreadyExists => "File exists"
  | .notDirectory => "Not a directory"
  | .isDirectory => "Is a directory"
  | .nameTooLong => "File name too long"

end SystemError

/-- What is said of a path with a null character, which the file system is not even asked for. -/
def nullInPathText : String := "embedded null byte"

end CommentTypes
