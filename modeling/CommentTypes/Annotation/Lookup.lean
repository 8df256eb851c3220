import CommentTypes.Annotation.Forms
import CommentTypes.Source.Basic
import CommentTypes.Text.LowerCase
import CommentTypes.Tree.Comment

/-!
# Annotations of declarations

The annotation of a declaration: the inline form on its own lines, or else a type tag in a comment
before it.
-/

namespace CommentTypes

/-- A type as written, in lower case, and whether it is complex. -/
structure Annotation where
  raw : String
  declared : TypeName
  complex : Bool
  deriving DecidableEq

/-- The annotation that a text is. -/
def Annotation.ofText (raw : String) : Annotation :=
  { raw, declared := Text.lower raw, complex := TypeName.isComplex raw }

/-- The comment ends on the line before a node, and is a block comment whose body starts with a
star. -/
def Node.isDocAbove (comment n : Node) : Bool :=
  comment.stop.row + 1 == n.start.row && comment.isBlockComment &&
    ['*'].isPrefixOf (Text.trim comment.body.toList)

namespace Source

/-- The first inline annotation on the lines of a node. -/
def inlineType? (s : Source) (n : Node) : Option String :=
  Form.inline.find? (s.spanText n)

/-- Those of some comments that document a node from the line above and are not yet seen. -/
def docsAbove (n : Node) (seen : List (Nat × Nat)) : List Node → List Node
  | [] => []
  | comment :: rest =>
    if !seen.contains comment.span && comment.isDocAbove n then
      comment :: docsAbove n (comment.span :: seen) rest
    else docsAbove n seen rest

/-- The comments that may hold a type tag for a node: those that lead it, then those that document
it from the line above. -/
def candidates (s : Source) (c : Cursor) : List Node :=
  let leading := c.leadingComments
  leading ++ docsAbove c.node (leading.map Node.span) s.comments

/-- The first type tag among the comments that may hold one. -/
def tagType? (s : Source) (c : Cursor) : Option String :=
  (s.candidates c).findSome? fun comment => Form.typeTag.find? comment.body

/-- The annotation of a declarator. The inline form counts before a tag. -/
def annotation? (s : Source) (c : Cursor) : Option Annotation :=
  ((s.inlineType? c.node).or (s.tagType? c)).map Annotation.ofText

end Source

end CommentTypes
