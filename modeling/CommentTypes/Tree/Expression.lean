import CommentTypes.Tree.Traversal

/-!
# Expressions

Expressions: what a node is once the parentheses around it are taken away, and the parts of calls,
arrays, declarations and assignments.
-/

namespace CommentTypes

/-- The shapes of expressions that are told apart. -/
inductive Shape where
  | string
  | number
  | boolean
  | null
  | object
  | array
  | function
  | identifier
  | void
  | call
  | other
  deriving DecidableEq

/-- All shapes in the order in which they are listed. -/
def Shape.all : List Shape :=
  [.string, .number, .boolean, .null, .object, .array, .function, .identifier, .void, .call, .other]

/-- The name of a shape. -/
def Shape.name : Shape → String
  | .string => "STRING"
  | .number => "NUMBER"
  | .boolean => "BOOLEAN"
  | .null => "NULL"
  | .object => "OBJECT"
  | .array => "ARRAY"
  | .function => "FUNCTION"
  | .identifier => "IDENTIFIER"
  | .void => "VOID"
  | .call => "CALL"
  | .other => "OTHER"

namespace Node

mutual

/-- The node inside any number of parentheses. Parentheses around nothing stay. -/
def unwrap : Node → Node
  | .node label children =>
    if label.kind = .parenthesized then unwrapFirst (.node label children) children
    else .node label children

/-- The first proper node of a list without its parentheses, or else the given node. -/
def unwrapFirst (otherwise : Node) : List Node → Node
  | [] => otherwise
  | n :: rest => if n.isProper then unwrap n else unwrapFirst otherwise rest

end

/-- The shape of a node without parentheses around it. -/
def bareShape (n : Node) : Shape :=
  match n.kind with
  | .string => .string
  | .number => .number
  | .trueLiteral | .falseLiteral => .boolean
  | .null => .null
  | .object => .object
  | .array => .array
  | .identifier | .undefined => .identifier
  | .call => .call
  | .functionExpression | .function | .arrowFunction | .generatorFunction => .function
  | .unary => if (n.child? .operator).any (·.kind = .void) then .void else .other
  | _ => .other

/-- The shape of an expression. -/
def shape (n : Node) : Shape :=
  n.unwrap.bareShape

/-- The name that an expression is, if it is one. -/
def identifier? (n : Node) : Option String :=
  if n.shape = .identifier then some n.unwrap.text else none

/-- The name of the function that a call calls, if it is called by a name. -/
def callee? (n : Node) : Option String :=
  (n.child? .function).bind identifier?

/-- The arguments of a call, in order. -/
def arguments (n : Node) : List Node :=
  ((n.child? .arguments).map properChildren).getD []

/-- The elements of an array literal; holes do not count. -/
def elements (n : Node) : List Node :=
  if n.unwrap.kind = .array then n.unwrap.properChildren else []

/-- The value of the expression is a function. -/
def isFunction (n : Node) : Bool :=
  n.shape = .function

/-- The text of the child in a role, where that child is an identifier. -/
def identifierIn? (n : Node) (role : Role) : Option String :=
  match n.child? role with
  | some c => if c.kind = .identifier then some c.text else none
  | none => none

/-- The name that a declarator binds; a pattern has none. -/
def boundName? (n : Node) : Option String :=
  n.identifierIn? .name

/-- The name that an assignment assigns to; a member has none. -/
def targetName? (n : Node) : Option String :=
  n.identifierIn? .left

/-- The text of the child in the role of a name. -/
def nameText? (n : Node) : Option String :=
  (n.child? .name).map text

end Node

end CommentTypes
