import CommentTypes.Log
import CommentTypes.Source.Error
import CommentTypes.Text.Newline
import CommentTypes.Text.Utf8
import CommentTypes.Tree.Traversal

/-!
# Source files

Source files: a text under a path, with its lines, its syntax tree and its comments.
-/

namespace CommentTypes

/-- The bytes of a text, line by line. -/
def byteLines (text : String) : List (List UInt8) :=
  (Text.Utf8.encode text.toList).splitOn 0x0a

/-- A file that can be checked. The lines and the comments are those of the text and the tree. -/
structure Source where
  path : String
  text : String
  root : Node
  lines : List String
  byteLines : List (List UInt8)
  comments : List Node
  lines_eq : lines = Text.lines text
  byteLines_eq : byteLines = CommentTypes.byteLines text
  comments_eq : comments = root.comments

/-- The number of characters before a byte of a line. A character that is cut counts, and a row
past the last line has its byte column. -/
def charColumn (byteLines : List (List UInt8)) (row column : Nat) : Nat :=
  match byteLines[row]? with
  | none => column
  | some bytes => (Text.Utf8.decode (bytes.take column)).length

/-- An index into a list of some length: a negative one counts from the end, and none leads
outside. -/
def clampIndex (length : Nat) (index : Int) : Nat :=
  if index < 0 then (index + length).toNat else min index.toNat length

/-- The number of characters before a byte of a line, where negative rows and columns count from the
end. There is no row before the first line. -/
def charColumn? (byteLines : List (List UInt8)) (row column : Int) : Option Int :=
  let fromStart := if row < 0 then row + byteLines.length else row
  if fromStart < 0 then none
  else match byteLines[fromStart.toNat]? with
    | none => some column
    | some bytes =>
      some (Text.Utf8.decode (bytes.take (clampIndex bytes.length column))).length

/-- Rows and columns that are not negative have the column that `charColumn` gives. -/
theorem charColumn?_natCast (byteLines : List (List UInt8)) (row column : Nat) :
    charColumn? byteLines row column = some (charColumn byteLines row column : Int) := by
  have h : ¬ (row : Int) < 0 := by omega
  have k : ¬ (column : Int) < 0 := by omega
  simp only [charColumn?, charColumn, clampIndex, h, k, if_false, Int.toNat_natCast]
  cases byteLines[row]? with
  | none => rfl
  | some bytes => simp [← List.take_eq_take_min]

/-- The longest snippet that is shown of a syntax error. -/
def snippetLength : Nat := 80

namespace Source

/-- The file with a path, a text and its tree. -/
def ofTree (path text : String) (root : Node) : Source :=
  { path, text, root
    lines := Text.lines text
    byteLines := CommentTypes.byteLines text
    comments := root.comments
    lines_eq := rfl
    byteLines_eq := rfl
    comments_eq := rfl }

/-- The error that a faulty node of a text is. -/
def malformed (path text : String) (n : Node) : SourceError :=
  .malformed path n.missing n.line
    (charColumn (CommentTypes.byteLines text) n.start.row n.start.column + 1)
    (String.ofList (n.text.toList.take snippetLength))

/-- The file with a path, a text and its tree, unless the tree has a syntax error. -/
def load (path text : String) (root : Node) : Logged (Except SourceError Source) :=
  match root.syntaxFault? with
  | some n => pure (.error (malformed path text n))
  | none => do
    let source := ofTree path text root
    .say .debug .parsing
      s!"Parsed {path}: {source.lines.length} lines, {source.comments.length} comments"
    return .ok source

/-- The lines from one to another, both included and counted from one, as one text. -/
def lineSpan (s : Source) (first last : Int) : String :=
  let count := s.lines.length
  Text.unlines ((s.lines.take (clampIndex count last)).drop (clampIndex count (first - 1)))

/-- The full lines on which a node stands. -/
def spanText (s : Source) (n : Node) : String :=
  s.lineSpan (n.start.row + 1) (n.stop.row + 1)

/-- The number of characters before a node on its first line. -/
def column (s : Source) (n : Node) : Nat :=
  charColumn s.byteLines n.start.row n.start.column

end Source

end CommentTypes
