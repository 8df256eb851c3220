import CommentTypes.Tree.Cursor
import CommentTypes.Text.Blank

/-!
# Comments

Comments: their bodies, and the comments that lead a node.
-/

namespace CommentTypes

namespace Node

/-- The comment is written between `/*` and `*/`. -/
def isBlockComment (n : Node) : Bool :=
  ['/', '*'].isPrefixOf n.text.toList

/-- A comment's text without the marks at its ends. -/
def bodyOf (cs : List Char) : List Char :=
  if ['/', '*'].isPrefixOf cs then
    let inner := cs.drop 2
    if ['*', '/'].isSuffixOf inner then inner.dropLast.dropLast else inner
  else if ['/', '/'].isPrefixOf cs then cs.drop 2
  else cs

/-- The text of a comment without the marks at its ends. -/
def body (n : Node) : String :=
  String.ofList (bodyOf n.text.toList)

end Node

namespace Frame

/-- The comments directly before the node, the nearest first. Where they follow a rule of the
grammar, those that start on the line on which it ends trail it and do not count. -/
def comments (f : Frame) : List Node :=
  let run := f.before.takeWhile Node.isComment
  match f.before.dropWhile Node.isComment with
  | [] => run
  | s :: _ => if s.named then run.filter (·.start.row ≠ s.stop.row) else run

/-- The node is the first proper child of its parent. -/
def opens (f : Frame) (n : Node) : Bool :=
  n.isProper && !f.before.any Node.isProper

end Frame

/-- The comments before a node, or else, where it opens a statement that shares its comments, those
before the statement. -/
def leadingFrom (n : Node) : List Frame → List Node
  | [] => []
  | f :: path =>
    match f.comments with
    | [] =>
      if f.parent.kind.sharesComments && f.opens n then leadingFrom f.parent path else []
    | found => found.reverse

/-- The comments that lead a node, in source order. -/
def Cursor.leadingComments (c : Cursor) : List Node :=
  leadingFrom c.node c.path

end CommentTypes
