import CommentTypes.Text.Join

/-!
# Lines

A carriage return, alone or before a line feed, ends a line like a line feed.
-/

namespace CommentTypes.Text

/-- The text with every line end written as a line feed. -/
def unifyNewlines : List Char → List Char
  | [] => []
  | '\r' :: '\n' :: rest => '\n' :: unifyNewlines rest
  | '\r' :: rest => '\n' :: unifyNewlines rest
  | c :: rest => c :: unifyNewlines rest

/-- The lines of a text, without the line feeds between them. The empty text has one line. -/
def lines (s : String) : List String :=
  (s.toList.splitOn '\n').map String.ofList

/-- Lines put together again, with a line feed between each two. -/
def unlines (ls : List String) : String :=
  joinWith "\n" ls

/-- No character is lost when a text is taken apart into lines. -/
@[simp]
theorem unlines_lines (s : String) : unlines (lines s) = s := by
  have h : String.toList ∘ String.ofList = id := by
    funext cs
    simp
  simp [unlines, lines, joinWith, h, List.intercalate_splitOn]

end CommentTypes.Text
