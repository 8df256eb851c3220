import CommentTypes.Tree.Node

/-!
# Cursors

A cursor is a node and the path up to the root: at each level the
parent and the siblings before it.
-/

namespace CommentTypes

/-- One step up: the parent, and its children before the node, the nearest first. -/
structure Frame where
  parent : Node
  before : List Node

/-- A node and the steps up to the root. -/
structure Cursor where
  node : Node
  path : List Frame := []

namespace Cursor

/-- Cursors at children that follow others, the nearest first. -/
def siblings (parent : Node) (path : List Frame) (before : List Node) : List Node → List Cursor
  | [] => []
  | n :: rest => ⟨n, ⟨parent, before⟩ :: path⟩ :: siblings parent path (n :: before) rest

/-- Cursors at the children of a node. -/
def children (c : Cursor) : List Cursor :=
  siblings c.node c.path [] c.node.children

theorem map_node_siblings (parent : Node) (path : List Frame) (before rest : List Node) :
    (siblings parent path before rest).map Cursor.node = rest := by
  induction rest generalizing before with
  | nil => rfl
  | cons n rest ih => simp [siblings, ih]

@[simp]
theorem map_node_children (c : Cursor) : c.children.map Cursor.node = c.node.children :=
  map_node_siblings ..

end Cursor

end CommentTypes
