import CommentTypes.Tree.Outline

/-!
# Grammars

Grammars: what gives a text its syntax tree. The trees may be known in advance for some texts; any
other text is then one syntax error.
-/

namespace CommentTypes

/-- The syntax tree of each text. -/
abbrev Grammar := String → Node

namespace Grammar

/-- The tree of a text that is not understood at all. -/
def misfit (text : String) : Node :=
  let bytes := text.toUTF8
  .node
    { id := 0, kind := .error, role := none
      start := Outline.positionAt [] 0
      stop := Outline.positionAt (Outline.lineStarts 0 bytes.toList) bytes.size
      named := true, missing := false, faulty := true, text } []

/-- The grammar that knows the trees of some texts. -/
def ofTrees (known : List (String × Node)) : Grammar := fun text =>
  (known.lookup text).getD (misfit text)

end Grammar

end CommentTypes
