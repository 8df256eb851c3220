import CommentTypes.Source.Basic
import CommentTypes.Tree.Grammar

/-!
# Trees in source order

What a parser promises of the tree of a text: at every node the children lie within the node and
follow one another (`Node.Ordered`), and positions count the line feeds before them
(`Node.PlacedIn`). The pre-order of such a tree is its source order: nodes are listed by the bytes
(`preorder_starts`) and so by the lines (`cursors_lines`) on which they start.

The pre-order is made with a stack, and so are the proofs: of the nodes on the stack each ends
before the next one starts, and the children that take the place of a node keep it so.
-/

namespace CommentTypes

section Unroll

variable {α β : Type} {below : α → List α} {weight : α → Nat}
  {lighter : ∀ a, total weight (below a) < weight a}

@[simp]
theorem unroll_nil : unroll below weight lighter [] = [] := by
  rw [unroll]

@[simp]
theorem unroll_cons (a : α) (stack : List α) :
    unroll below weight lighter (a :: stack) =
      a :: unroll below weight lighter (below a ++ stack) := by
  rw [unroll]

/-- Items that are seen in another way are listed in the same order. -/
theorem map_unroll_of_mem (f : α → β) {below' : β → List β} {weight' : β → Nat}
    {lighter' : ∀ b, total weight' (below' b) < weight' b} {stack : List α}
    (hf : ∀ a ∈ unroll below weight lighter stack, (below a).map f = below' (f a)) :
    (unroll below weight lighter stack).map f =
      unroll below' weight' lighter' (stack.map f) := by
  induction stack using unroll.induct below weight lighter with
  | case1 => simp
  | case2 a stack ih =>
    rw [unroll_cons] at hf ⊢
    obtain ⟨ha, hrest⟩ := List.forall_mem_cons.mp hf
    rw [List.map_cons, ih hrest, List.map_append, ha, List.map_cons, unroll_cons]

theorem map_unroll (f : α → β) {below' : β → List β} {weight' : β → Nat}
    {lighter' : ∀ b, total weight' (below' b) < weight' b}
    (hf : ∀ a, (below a).map f = below' (f a)) (stack : List α) :
    (unroll below weight lighter stack).map f =
      unroll below' weight' lighter' (stack.map f) :=
  map_unroll_of_mem f fun a _ => hf a

/-- What holds of the items of a stack and is handed down holds of all that hangs below them. -/
theorem forall_mem_unroll {P : α → Prop} {stack : List α}
    (hdown : ∀ a ∈ unroll below weight lighter stack, P a → ∀ b ∈ below a, P b)
    (hstack : ∀ a ∈ stack, P a) : ∀ a ∈ unroll below weight lighter stack, P a := by
  induction stack using unroll.induct below weight lighter with
  | case1 => simp
  | case2 a stack ih =>
    rw [unroll_cons] at hdown ⊢
    obtain ⟨ha, hrest⟩ := List.forall_mem_cons.mp hdown
    obtain ⟨hPa, hPs⟩ := List.forall_mem_cons.mp hstack
    refine List.forall_mem_cons.mpr ⟨hPa, ih hrest fun b hb => ?_⟩
    exact (List.mem_append.mp hb).elim (ha hPa b) (hPs b)

end Unroll

@[simp]
theorem map_node_cursors (root : Node) : root.cursors.map Cursor.node = root.preorder :=
  map_unroll Cursor.node Cursor.map_node_children _

namespace Node

/-- The children of the node lie within it, and each ends before the next one starts. -/
structure Nested (n : Node) : Prop where
  span : n.start.byte ≤ n.stop.byte
  within : ∀ c ∈ n.children, n.start.byte ≤ c.start.byte ∧ c.stop.byte ≤ n.stop.byte
  apart : n.children.Pairwise fun a b => a.stop.byte ≤ b.start.byte

instance (n : Node) : Decidable n.Nested :=
  decidable_of_iff (n.start.byte ≤ n.stop.byte ∧
      (∀ c ∈ n.children, n.start.byte ≤ c.start.byte ∧ c.stop.byte ≤ n.stop.byte) ∧
      n.children.Pairwise fun a b => a.stop.byte ≤ b.start.byte)
    ⟨fun h => ⟨h.1, h.2.1, h.2.2⟩, fun h => ⟨h.span, h.within, h.apart⟩⟩

/-- At every node of the tree, the children lie within the node and follow one another. -/
def Ordered (root : Node) : Prop :=
  ∀ n ∈ root.preorder, n.Nested

instance (root : Node) : Decidable root.Ordered :=
  inferInstanceAs (Decidable (∀ n ∈ root.preorder, n.Nested))

/-- What hangs below the nodes of a stack starts no earlier than they do. -/
theorem le_start_of_mem_unroll {stack : List Node}
    (hn : ∀ n ∈ unroll children size total_size_children_lt stack, n.Nested) {lo : Nat}
    (hlo : ∀ n ∈ stack, lo ≤ n.start.byte) :
    ∀ n ∈ unroll children size total_size_children_lt stack, lo ≤ n.start.byte :=
  forall_mem_unroll (fun a ha hla c hc => Nat.le_trans hla ((hn a ha).within c hc).1) hlo

/-- If each node of a stack ends before the next one starts, all that hangs below them is listed
by where it starts. -/
theorem unroll_starts {stack : List Node}
    (hn : ∀ n ∈ unroll children size total_size_children_lt stack, n.Nested)
    (hs : stack.Pairwise fun a b => a.stop.byte ≤ b.start.byte) :
    (unroll children size total_size_children_lt stack).Pairwise
      fun a b => a.start.byte ≤ b.start.byte := by
  induction stack using unroll.induct children size total_size_children_lt with
  | case1 => simp
  | case2 a stack ih =>
    rw [unroll_cons] at hn ⊢
    obtain ⟨ha, hrest⟩ := List.forall_mem_cons.mp hn
    obtain ⟨has, hs⟩ := List.pairwise_cons.mp hs
    refine List.pairwise_cons.mpr ⟨le_start_of_mem_unroll hrest fun n hm => ?_, ih hrest ?_⟩
    · rcases List.mem_append.mp hm with hc | hm
      · exact (ha.within n hc).1
      · exact Nat.le_trans ha.span (has n hm)
    · -- the children end within `a`, which ends before the rest of the stack
      exact List.pairwise_append.mpr
        ⟨ha.apart, hs, fun c hc b hb => Nat.le_trans (ha.within c hc).2 (has b hb)⟩

/-- The nodes of an ordered tree are listed by the bytes on which they start. -/
theorem preorder_starts {root : Node} (h : root.Ordered) :
    root.preorder.Pairwise fun a b => a.start.byte ≤ b.start.byte :=
  unroll_starts h (List.pairwise_singleton ..)

end Node

/-! ## Lines -/

/-- The number of line feeds among the bytes of a text before one of them. -/
def lineFeeds (text : String) (byte : Nat) : Nat :=
  ((Text.Utf8.encode text.toList).take byte).count 0x0a

theorem lineFeeds_mono (text : String) {a b : Nat} (h : a ≤ b) :
    lineFeeds text a ≤ lineFeeds text b :=
  List.Sublist.count_le _ (List.take_sublist_take_left h)

/-- The node starts on the row that its text gives the byte. -/
def Node.PlacedIn (n : Node) (text : String) : Prop :=
  n.start.row = lineFeeds text n.start.byte

instance (n : Node) (text : String) : Decidable (n.PlacedIn text) :=
  inferInstanceAs (Decidable (n.start.row = lineFeeds text n.start.byte))

/-- What a parser promises of the tree that it makes of a text. -/
structure Source.WellFormed (s : Source) : Prop where
  ordered : s.root.Ordered
  placed : ∀ n ∈ s.root.preorder, n.PlacedIn s.text

instance (s : Source) : Decidable s.WellFormed :=
  decidable_of_iff (s.root.Ordered ∧ ∀ n ∈ s.root.preorder, n.PlacedIn s.text)
    ⟨fun h => ⟨h.1, h.2⟩, fun h => ⟨h.ordered, h.placed⟩⟩

/-- Later nodes of a well-formed file start on the same or later lines. -/
theorem cursors_lines {s : Source} (h : s.WellFormed) :
    s.root.cursors.Pairwise fun c d => c.node.line ≤ d.node.line := by
  have hp : (s.root.cursors.map Cursor.node).Pairwise fun a b => a.line ≤ b.line := by
    rw [map_node_cursors]
    refine (Node.preorder_starts h.ordered).imp_of_mem fun {a b} ha hb hab => ?_
    have hrow := lineFeeds_mono s.text hab
    rw [← h.placed a ha, ← h.placed b hb] at hrow
    exact Nat.succ_le_succ hrow
  rw [List.pairwise_map] at hp
  exact hp

/-- A rule of the grammar without faults, as an entry of an outline. -/
def Outline.Entry.rule (kind role : String) (start stop children : Nat) : Outline.Entry :=
  { kind, role, start, stop, children, named := true, missing := false, faulty := false }

/-- The file of a text whose tree is written as an outline. -/
def Source.ofOutline (path text : String) (entries : List Outline.Entry) : Source :=
  .ofTree path text ((Outline.tree? text entries).getD (Grammar.misfit text))

/-- The cursor of a sample at an index of the pre-order. -/
def Node.cursorAt (root : Node) (i : Nat) : Cursor :=
  root.cursors[i]?.getD ⟨root, []⟩

theorem Node.exists_child_of_any {n : Node} {role : Role} {P : Node → Prop} [DecidablePred P]
    (h : ((n.child? role).any fun v => decide (P v)) = true) :
    ∃ v, n.child? role = some v ∧ P v := by
  cases hv : n.child? role with
  | none => simp [hv] at h
  | some v => exact ⟨v, rfl, by simpa [hv] using h⟩

end CommentTypes
