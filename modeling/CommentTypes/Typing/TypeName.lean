import CommentTypes.Text.Blank

/-!
# Types

Types as they are written and compared. A type is a text: the name of a base type, or the text of
an annotation. A text with one of the characters `[ ] < > | &` is complex; of these, arrays (`T[]`)
and unions (`A|B`) are understood.
-/

namespace CommentTypes

/-- The text of a type. -/
abbrev TypeName := String

/-- The types that expressions have by their shape. -/
inductive BaseType where
  | string
  | number
  | boolean
  | null
  | undefined
  | object
  | array
  | function
  | reference
  | unknown
  deriving DecidableEq

/-- The name of a base type. -/
def BaseType.name : BaseType → TypeName
  | .string => "string"
  | .number => "number"
  | .boolean => "boolean"
  | .null => "null"
  | .undefined => "undefined"
  | .object => "object"
  | .array => "array"
  | .function => "function"
  | .reference => "reference"
  | .unknown => "unknown"

/-- The base types in the order in which they are listed. -/
def BaseType.all : List BaseType :=
  [.string, .number, .boolean, .null, .undefined, .object, .array, .function, .reference, .unknown]

namespace TypeName

/-- The characters that make a type complex. -/
def complexChars : List Char :=
  ['&', '<', '>', '[', ']', '|']

/-- The type has one of the characters that make it complex. -/
def isComplex (t : TypeName) : Bool :=
  t.toList.any complexChars.contains

/-- The type ends with the array suffix. -/
def isArray (t : TypeName) : Bool :=
  ['[', ']'].isSuffixOf t.toList

/-- The type without its last two characters, which are the suffix of an array type. -/
def element (t : TypeName) : TypeName :=
  String.ofList t.toList.dropLast.dropLast

/-- The type has a bar between members. -/
def isUnion (t : TypeName) : Bool :=
  t.toList.contains '|'

/-- The members of a union, without blanks around them. -/
def members (t : TypeName) : List TypeName :=
  (t.toList.splitOn '|').map fun cs => String.ofList (Text.trim cs)

end TypeName

end CommentTypes
