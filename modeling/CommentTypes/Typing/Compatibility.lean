import CommentTypes.Typing.Inference

/-!
# Compatibility of types

When a type found satisfies a type declared: a simple type only itself, an array type an array
whose first literal element has the element type, a union each of its members.
-/

namespace CommentTypes

/-- The first element of an array literal, if there is one, has a literal type that is the element
type. Any other expression has no elements to look at. -/
def Node.elementsMatch (declared : TypeName) (n : Node) : Bool :=
  if n.shape = .array then
    match n.elements with
    | [] => true
    | first :: _ => TypeName.element declared == first.literalType
  else true

/-- The type found for an expression satisfies an array type. -/
def matchesArray (declared found : TypeName) (value : Option Node) : Bool :=
  (found == BaseType.array.name || found == declared) && value.all (·.elementsMatch declared)

/-- The type found for an expression satisfies a declared type, which is complex or not as said.
Complex types other than arrays and unions are not satisfied by anything. -/
def isMatch (declared found : TypeName) (value : Option Node) (complex : Bool) : Bool :=
  if !complex then declared == found
  else if TypeName.isArray declared then matchesArray declared found value
  else if TypeName.isUnion declared then (TypeName.members declared).contains found
  else false

end CommentTypes
