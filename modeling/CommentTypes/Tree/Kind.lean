/-!
# Kinds of nodes

Kinds of syntax nodes, and the roles in which a node holds its children. Only the kinds and roles
that the checker asks about have names of their own.
-/

namespace CommentTypes

/-- The kind of a syntax node. -/
inductive Kind where
  | comment
  | error
  | variableDeclarator
  | assignment
  | compoundAssignment
  | call
  | functionDeclaration
  | generatorDeclaration
  | functionExpression
  | function
  | arrowFunction
  | generatorFunction
  | lexicalDeclaration
  | variableDeclaration
  | exportStatement
  | expressionStatement
  | string
  | number
  | trueLiteral
  | falseLiteral
  | null
  | object
  | array
  | identifier
  | undefined
  | parenthesized
  | unary
  | void
  | other (name : String)
  deriving DecidableEq

namespace Kind

/-- The kind that the grammar calls by a name. -/
def ofName : String → Kind
  | "comment" => .comment
  | "ERROR" => .error
  | "variable_declarator" => .variableDeclarator
  | "assignment_expression" => .assignment
  | "augmented_assignment_expression" => .compoundAssignment
  | "call_expression" => .call
  | "function_declaration" => .functionDeclaration
  | "generator_function_declaration" => .generatorDeclaration
  | "function_expression" => .functionExpression
  | "function" => .function
  | "arrow_function" => .arrowFunction
  | "generator_function" => .generatorFunction
  | "lexical_declaration" => .lexicalDeclaration
  | "variable_declaration" => .variableDeclaration
  | "export_statement" => .exportStatement
  | "expression_statement" => .expressionStatement
  | "string" => .string
  | "number" => .number
  | "true" => .trueLiteral
  | "false" => .falseLiteral
  | "null" => .null
  | "object" => .object
  | "array" => .array
  | "identifier" => .identifier
  | "undefined" => .undefined
  | "parenthesized_expression" => .parenthesized
  | "unary_expression" => .unary
  | "void" => .void
  | name => .other name

/-- A declaration of a function or a generator. -/
def declaresFunction : Kind → Bool
  | .functionDeclaration | .generatorDeclaration => true
  | _ => false

/-- A statement whose leading comments belong to its first child as well. -/
def sharesComments : Kind → Bool
  | .lexicalDeclaration | .variableDeclaration | .exportStatement | .expressionStatement => true
  | _ => false

end Kind

/-- The role in which a node holds one of its children. -/
inductive Role where
  | name
  | value
  | left
  | right
  | operator
  | function
  | arguments
  | other (name : String)
  deriving DecidableEq

/-- The role that the grammar calls by a name. -/
def Role.ofName : String → Role
  | "name" => .name
  | "value" => .value
  | "left" => .left
  | "right" => .right
  | "operator" => .operator
  | "function" => .function
  | "arguments" => .arguments
  | word => .other word

end CommentTypes
