import CommentTypes.Json.Reader
import CommentTypes.Tree.Grammar
import CommentTypes.Workspace.Basic

/-!
# Outlines beside files

Outlines beside the files they describe. The outline of a file has the file's name with an ending,
and holds its syntax tree in JSON.
-/

namespace CommentTypes

/-- What the name of an outline has after the name of its file. -/
def outlineEnding : String := ".outline.json"

/-- The text of a file that can be decoded. -/
def textOf? (bytes : List UInt8) : Option String :=
  match Text.Utf8.decodeStrict bytes with
  | .ok cs => some (String.ofList (Text.unifyNewlines cs))
  | .error _ => none

/-- The tree that an outline gives a text. -/
def outlinedTree? (text : String) (outline : List UInt8) : Option Node :=
  (textOf? outline).bind fun written =>
    match Json.parse written with
    | .ok v => Outline.ofJson? text v
    | .error _ => none

namespace Entry

/-- The text of a file with an outline beside it, and its tree. -/
def outlined? (entries : List (String × Entry)) : String × Entry → Option (String × Node)
  | (name, .file bytes) =>
    match entries.lookup (name ++ outlineEnding) with
    | some (.file outline) => do
      let text ← textOf? bytes
      return (text, ← outlinedTree? text outline)
    | _ => none
  | (_, .dir _ _) => none

mutual

/-- The texts with outlines in a directory and below it, and their trees. -/
def trees : Entry → List (String × Node)
  | .file _ => []
  | .dir entries _ => entries.filterMap (outlined? entries) ++ treesBelow entries

/-- The texts with outlines below several entries, and their trees. -/
def treesBelow : List (String × Entry) → List (String × Node)
  | [] => []
  | (_, e) :: rest => e.trees ++ treesBelow rest

end

end Entry

/-- The grammar that knows the outlines of a workspace. -/
def Workspace.grammar (w : Workspace) : Grammar :=
  .ofTrees w.root.trees

end CommentTypes
