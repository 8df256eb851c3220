import CommentTypes.Source.Basic
import CommentTypes.Tree.Comment

/-!
# Directives

Directives: comments that keep a file, or the rest of a file, from being checked.
-/

namespace CommentTypes

/-- What the directives of a file say: whether it is skipped, and the line after which nothing is
checked. -/
structure Directives where
  skipped : Bool := false
  cutoff : Option Int := none
  deriving DecidableEq

/-- The body of a comment that skips its file, blanks around it aside. -/
def skipBody : List Char := ": skip".toList

/-- The text that ends checking after its line. -/
def skipRemainingMark : List Char := "/*: skip-remaining */".toList

/-- A text occurs inside another. -/
def occursIn (part : List Char) : List Char → Bool
  | [] => part.isEmpty
  | c :: cs => part.isPrefixOf (c :: cs) || occursIn part cs

namespace Directives

/-- One of the comments skips the file. -/
def skipsFile (comments : List Node) : Bool :=
  comments.any fun c => Text.trim c.body.toList == skipBody

/-- The line of the first mark that ends checking, from one. -/
def cutoffLine? (lines : List String) : Option Nat :=
  (lines.findIdx? fun line => occursIn skipRemainingMark line.toList).map (· + 1)

/-- The directives of a file. -/
def ofSource (s : Source) : Directives :=
  { skipped := skipsFile s.comments
    cutoff := (cutoffLine? s.lines).map Int.ofNat }

/-- Nothing that starts on the line is checked. -/
def cutsOff (d : Directives) (line : Int) : Bool :=
  d.cutoff.any (· < line)

end Directives

end CommentTypes
