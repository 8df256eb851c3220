import CommentTypes.Tree.Kind

/-!
# Syntax trees

A node has a label, which says what the grammar knows of it and where it stands in
the text, and its children in source order.
-/

namespace CommentTypes

/-- A point in a text: its byte offset, the number of line feeds before it, and its distance in
bytes from the last of them. -/
structure Position where
  byte : Nat
  row : Nat
  column : Nat
  deriving DecidableEq

/-- What is known of a node apart from its children. -/
structure Label where
  /-- The place of the node in the pre-order of its tree; it tells nodes of equal content apart. -/
  id : Nat
  kind : Kind
  /-- The role in which the parent holds the node. -/
  role : Option Role
  start : Position
  stop : Position
  /-- The node is a rule of the grammar, not a token of its own spelling. -/
  named : Bool
  /-- The node was put in where the text lacks it. -/
  missing : Bool
  /-- The node or one below it is a syntax error. -/
  faulty : Bool
  text : String
  deriving DecidableEq

/-- A syntax tree. -/
inductive Node where
  | node (label : Label) (children : List Node)

namespace Node

/-- The label of a node. -/
def label : Node → Label
  | .node label _ => label

/-- The children of a node, in source order. -/
def children : Node → List Node
  | .node _ children => children

/-- The place of the node in the pre-order of its tree. -/
def id (n : Node) : Nat := n.label.id

/-- The kind of the node. -/
def kind (n : Node) : Kind := n.label.kind

/-- The role in which the parent holds the node. -/
def role (n : Node) : Option Role := n.label.role

/-- Where the node starts. -/
def start (n : Node) : Position := n.label.start

/-- Where the node ends. -/
def stop (n : Node) : Position := n.label.stop

/-- The node is a rule of the grammar. -/
def named (n : Node) : Bool := n.label.named

/-- The node was put in where the text lacks it. -/
def missing (n : Node) : Bool := n.label.missing

/-- The node or one below it is a syntax error. -/
def faulty (n : Node) : Bool := n.label.faulty

/-- The part of the text that the node covers. -/
def text (n : Node) : String := n.label.text

/-- The line on which the node starts, from one. -/
def line (n : Node) : Nat := n.start.row + 1

/-- The byte offsets between which the node stands. -/
def span (n : Node) : Nat × Nat := (n.start.byte, n.stop.byte)

/-- The node is a comment. -/
def isComment (n : Node) : Bool := n.kind = .comment

/-- The node is a rule of the grammar and not a comment. -/
def isProper (n : Node) : Bool := n.named && !n.isComment

/-- The children that are rules of the grammar, without comments. -/
def properChildren (n : Node) : List Node :=
  n.children.filter isProper

/-- The first child held in a role. -/
def child? (n : Node) (role : Role) : Option Node :=
  n.children.find? fun c => c.role = some role

mutual

/-- The number of nodes of a tree. -/
def size : Node → Nat
  | .node _ children => 1 + sizeAll children

/-- The number of nodes of several trees. -/
def sizeAll : List Node → Nat
  | [] => 0
  | n :: rest => size n + sizeAll rest

end

theorem sizeAll_append (xs ys : List Node) : sizeAll (xs ++ ys) = sizeAll xs + sizeAll ys := by
  induction xs with
  | nil => simp [sizeAll]
  | cons x xs ih => simp [sizeAll, ih, Nat.add_assoc]

theorem size_eq (n : Node) : n.size = 1 + sizeAll n.children := by
  cases n
  rfl

end Node

end CommentTypes
