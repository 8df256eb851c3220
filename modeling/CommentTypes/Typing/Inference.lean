import CommentTypes.Typing.Signature
import CommentTypes.Typing.Tracker

/-!
# Types of expressions

The type of an expression, read off its outermost shape. A call has the type that the called
function is said to return, a name the type last inferred for it.
-/

namespace CommentTypes

/-- The base type that a shape has whatever surrounds it. -/
def Shape.baseType? : Shape → Option BaseType
  | .string => some .string
  | .number => some .number
  | .boolean => some .boolean
  | .null => some .null
  | .object => some .object
  | .function => some .function
  | .void => some .undefined
  | .array | .identifier | .call | .other => none

namespace Node

/-- The type of a literal string, number or boolean. Other expressions are unknown. -/
def literalType (n : Node) : TypeName :=
  match n.shape with
  | .string => BaseType.string.name
  | .number => BaseType.number.name
  | .boolean => BaseType.boolean.name
  | _ => BaseType.unknown.name

/-- The type of an array literal: where an array type is declared, that type. -/
def arrayType : Option TypeName → TypeName
  | some declared =>
    if TypeName.isComplex declared && TypeName.isArray declared then declared
    else BaseType.array.name
  | none => BaseType.array.name

/-- The type of an expression where a type may be declared for it. -/
def inferredType (n : Node) (bindings : Tracker) (signatures : Registry)
    (declared : Option TypeName) : TypeName :=
  match n.shape with
  | .call => (n.unwrap.callee?.bind signatures.returns?).getD BaseType.unknown.name
  | .array => arrayType declared
  | .identifier => (bindings.resolve? n.unwrap.text).getD BaseType.reference.name
  | shape => (shape.baseType?.getD .unknown).name

end Node

/-- The type of an expression that may be absent; nothing is known of an absent one. -/
def inferType (value : Option Node) (bindings : Tracker) (signatures : Registry)
    (declared : Option TypeName := none) : TypeName :=
  match value with
  | some n => n.inferredType bindings signatures declared
  | none => BaseType.unknown.name

end CommentTypes
