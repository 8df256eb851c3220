/-!
# Joined texts

Texts put together with a separator between each two.
-/

namespace CommentTypes.Text

/-- The texts in order, with the separator between each two. -/
def joinWith (separator : String) (texts : List String) : String :=
  String.ofList (separator.toList.intercalate (texts.map String.toList))

end CommentTypes.Text
