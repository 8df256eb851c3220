import CommentTypes.Text.Loose

/-!
# JSON values

JSON values. Numbers without fraction and exponent are integers of any size; of other numbers only
their text is kept.
-/

namespace CommentTypes

/-- A JSON value. The fields of an object have different names and keep their order. -/
inductive Json where
  | null
  | bool (b : Bool)
  | int (n : Int)
  | float (text : String)
  | str (s : Text.Loose)
  | arr (items : List Json)
  | obj (fields : List (Text.Loose × Json))

namespace Json

/-- The fields of an object. -/
abbrev Fields := List (Text.Loose × Json)

/-- The value of a field of an object. -/
def field? (name : String) : Json → Option Json
  | .obj fields => fields.lookup (.string name)
  | _ => none

end Json

end CommentTypes
