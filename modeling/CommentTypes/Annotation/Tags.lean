import CommentTypes.Annotation.Forms
import CommentTypes.Text.LowerCase
import CommentTypes.Tree.Comment

/-!
# Tags of functions

The types that the comments before a function give to its parameters and to what it returns.
-/

namespace CommentTypes

/-- Parameters with their types, in the order of their tags, and the type returned. -/
structure Tags where
  params : List (String × TypeName) := []
  returns : Option TypeName := none
  deriving DecidableEq

namespace Tags

/-- A type as a tag gives it: without blanks around it and in lower case. -/
def cleaned (type : String) : TypeName :=
  Text.lower (Text.trimmed type)

/-- The parameter that the parts of a tag name. -/
def param? : List String → Option (String × TypeName)
  | [type, name] => some (name, cleaned type)
  | _ => none

/-- The parameters tagged in the body of a comment. -/
def paramsOf (body : String) : List (String × TypeName) :=
  (Form.paramTag.occurrences body).filterMap fun o => param? o.parts

/-- The type that the body of a comment says is returned. -/
def returnsOf (body : String) : Option TypeName :=
  (Form.returnsTag.find? body).map cleaned

/-- The tags of several bodies: all parameters, and the first type returned. -/
def ofBodies (bodies : List String) : Tags :=
  { params := bodies.flatMap paramsOf
    returns := bodies.findSome? returnsOf }

end Tags

/-- The tags in the comments that lead a node. -/
def Cursor.tags (c : Cursor) : Tags :=
  Tags.ofBodies (c.leadingComments.map Node.body)

end CommentTypes
