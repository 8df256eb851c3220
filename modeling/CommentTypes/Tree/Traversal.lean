import CommentTypes.Total
import CommentTypes.Tree.Cursor

/-!
# Pre-order

`unroll` lists what hangs below the items of a stack, an item before what hangs below
it, and left before right. Trees and cursors are listed by it: `Node.preorder`, `Cursor.preorder`.
-/

namespace CommentTypes

/-- Takes the top of the stack, and puts what hangs directly below it on the stack in its place,
until the stack is empty. The weight of an item exceeds that of the items directly below it. -/
def unroll {α : Type} (below : α → List α) (weight : α → Nat)
    (lighter : ∀ a, total weight (below a) < weight a) : (stack : List α) → List α
  | [] => []
  | a :: stack => a :: unroll below weight lighter (below a ++ stack)
termination_by stack => total weight stack
decreasing_by
  have := lighter a
  simp only [total_append, total_cons]
  omega

namespace Node

theorem sizeAll_eq_total (ns : List Node) : sizeAll ns = total size ns := by
  induction ns with
  | nil => rfl
  | cons n ns ih => simp [sizeAll, ih]

theorem total_size_children_lt (n : Node) : total size n.children < n.size := by
  rw [size_eq, sizeAll_eq_total]
  omega

/-- The nodes of a tree: each before its children, and a child's nodes before the next child's. -/
def preorder (n : Node) : List Node :=
  unroll children size total_size_children_lt [n]

/-- The comments of a tree, in source order. -/
def comments (n : Node) : List Node :=
  n.preorder.filter isComment

/-- The first syntax error of a tree: a node of kind `error` or a missing one, looked for only
where the root says that there is one. -/
def syntaxFault? (n : Node) : Option Node :=
  if n.faulty then some ((n.preorder.find? fun m => m.kind = .error || m.missing).getD n)
  else none

end Node

namespace Cursor

theorem total_size_children_lt (c : Cursor) :
    total (fun d => d.node.size) c.children < c.node.size := by
  rw [← total_map Node.size, map_node_children]
  exact c.node.total_size_children_lt

/-- Cursors at the nodes of a tree, in pre-order. -/
def preorder (c : Cursor) : List Cursor :=
  unroll children (fun d => d.node.size) total_size_children_lt [c]

end Cursor

/-- Cursors at all nodes of a tree, in pre-order. -/
def Node.cursors (root : Node) : List Cursor :=
  Cursor.preorder ⟨root, []⟩

end CommentTypes
