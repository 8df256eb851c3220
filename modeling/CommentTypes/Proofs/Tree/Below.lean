import CommentTypes.Proofs.Tree.Order
import CommentTypes.Tree.Comment
import CommentTypes.Tree.Expression

/-!
# What hangs below a node

The pre-order lists what hangs below the items of a stack item by item (`unroll_append`), and with
an item all that hangs below it (`mem_unroll_of_mem_below`).

So whatever the checker looks at from a node of a tree is a node of the tree: its children in their
roles, its arguments (`mem_preorder_of_mem_arguments`), the node inside its parentheses
(`unwrap_mem_preorder`), and the comments that lead it (`leadingComments_mem_preorder`).
-/

namespace CommentTypes

section Unroll

variable {α : Type} {below : α → List α} {weight : α → Nat}
  {lighter : ∀ a, total weight (below a) < weight a}

theorem unroll_append (xs ys : List α) :
    unroll below weight lighter (xs ++ ys) =
      unroll below weight lighter xs ++ unroll below weight lighter ys := by
  induction xs using unroll.induct below weight lighter with
  | case1 => rw [unroll_nil, List.nil_append, List.nil_append]
  | case2 a stack ih =>
    rw [List.cons_append, unroll_cons, unroll_cons, ← List.append_assoc, ih, List.cons_append]

theorem subset_unroll (stack : List α) : stack ⊆ unroll below weight lighter stack := by
  induction stack using unroll.induct below weight lighter with
  | case1 => exact List.nil_subset _
  | case2 a stack ih =>
    rw [unroll_cons]
    exact List.cons_subset_cons a fun b hb => ih (List.mem_append_right _ hb)

theorem mem_unroll_of_mem_below {stack : List α} {a b : α}
    (ha : a ∈ unroll below weight lighter stack) (hb : b ∈ below a) :
    b ∈ unroll below weight lighter stack := by
  induction stack using unroll.induct below weight lighter with
  | case1 => simp at ha
  | case2 c stack ih =>
    rw [unroll_cons] at ha ⊢
    rcases List.mem_cons.mp ha with rfl | ha
    · exact List.mem_cons_of_mem _ (subset_unroll _ (List.mem_append_left _ hb))
    · exact List.mem_cons_of_mem _ (ih ha)

/-- What hangs below the items of a stack is listed item by item. -/
theorem unroll_eq_flatMap (stack : List α) :
    unroll below weight lighter stack =
      stack.flatMap fun a => unroll below weight lighter [a] := by
  induction stack with
  | nil => rw [unroll_nil, List.flatMap_nil]
  | cons a stack ih =>
    rw [List.flatMap_cons, ← ih, ← unroll_append, List.singleton_append]

end Unroll

namespace Node

variable {root n m : Node}

/-- A tree is listed by its root, and then by the trees of the children, one after the other. -/
theorem preorder_eq (n : Node) : n.preorder = n :: n.children.flatMap preorder := by
  rw [preorder, unroll_cons, List.append_nil, unroll_eq_flatMap]
  rfl

theorem mem_preorder_self (root : Node) : root ∈ root.preorder :=
  subset_unroll _ List.mem_cons_self

theorem mem_preorder_of_mem_children (hn : n ∈ root.preorder) (hm : m ∈ n.children) :
    m ∈ root.preorder :=
  mem_unroll_of_mem_below hn hm

/-- All that hangs below a node of a tree is in the tree. -/
theorem preorder_subset (hn : n ∈ root.preorder) : n.preorder ⊆ root.preorder :=
  forall_mem_unroll (P := (· ∈ root.preorder))
    (fun _ _ ha _ hb => mem_preorder_of_mem_children ha hb) (List.forall_mem_singleton.mpr hn)

theorem mem_preorder_of_child? (hn : n ∈ root.preorder) {role : Role}
    (hm : n.child? role = some m) : m ∈ root.preorder :=
  mem_preorder_of_mem_children hn (List.mem_of_find?_eq_some hm)

theorem mem_preorder_of_mem_arguments (hn : n ∈ root.preorder) (hm : m ∈ n.arguments) :
    m ∈ root.preorder := by
  unfold arguments at hm
  cases ha : n.child? .arguments with
  | none => simp [ha] at hm
  | some list =>
    simp only [ha, Option.map_some, Option.getD_some] at hm
    exact mem_preorder_of_mem_children (mem_preorder_of_child? hn ha) (List.mem_filter.mp hm).1

mutual

/-- The node inside the parentheses of a node is a node of the same tree. -/
theorem unwrap_mem_preorder : ∀ {n : Node}, n ∈ root.preorder → n.unwrap ∈ root.preorder
  | .node label children, h => by
    rw [unwrap]
    split
    · exact unwrapFirst_mem_preorder h fun m hm => mem_preorder_of_mem_children h hm
    · exact h

theorem unwrapFirst_mem_preorder {otherwise : Node} (h : otherwise ∈ root.preorder) :
    ∀ {ns : List Node}, (∀ n ∈ ns, n ∈ root.preorder) →
      unwrapFirst otherwise ns ∈ root.preorder
  | [], _ => h
  | n :: ns, hns => by
    obtain ⟨hn, hns⟩ := List.forall_mem_cons.mp hns
    rw [unwrapFirst]
    split
    · exact unwrap_mem_preorder hn
    · exact unwrapFirst_mem_preorder h hns

end

end Node

/-! ## Cursors -/

/-- The node and the siblings before it, at all levels, are nodes of the tree. -/
structure Cursor.Within (root : Node) (c : Cursor) : Prop where
  node : c.node ∈ root.preorder
  before : ∀ f ∈ c.path, ∀ n ∈ f.before, n ∈ root.preorder

theorem Cursor.mem_siblings_iff {parent : Node} {path : List Frame} {before rest : List Node}
    {c : Cursor} : c ∈ siblings parent path before rest ↔
      ∃ earlier after, rest = earlier ++ c.node :: after ∧
        c.path = ⟨parent, earlier.reverse ++ before⟩ :: path := by
  induction rest generalizing before with
  | nil => simp [siblings]
  | cons n rest ih =>
    rw [siblings, List.mem_cons, ih]
    constructor
    · rintro (rfl | ⟨earlier, after, rfl, hpath⟩)
      · exact ⟨[], rest, rfl, rfl⟩
      · exact ⟨n :: earlier, after, rfl, by simpa using hpath⟩
    · rintro ⟨_ | ⟨m, earlier⟩, after, hrest, hpath⟩
      · obtain ⟨rfl, rfl⟩ := List.cons.inj hrest
        left
        cases c
        exact congrArg _ hpath
      · obtain ⟨rfl, rfl⟩ := List.cons.inj hrest
        exact .inr ⟨earlier, after, rfl, by simpa using hpath⟩

/-- A cursor at a child, by the siblings before it and after it. -/
theorem Cursor.mem_children_iff {p c : Cursor} : c ∈ p.children ↔
    ∃ before after, p.node.children = before.reverse ++ c.node :: after ∧
      c.path = ⟨p.node, before⟩ :: p.path := by
  rw [children, mem_siblings_iff]
  constructor
  · rintro ⟨earlier, after, hchildren, hpath⟩
    exact ⟨earlier.reverse, after, by rwa [List.reverse_reverse], by simpa using hpath⟩
  · rintro ⟨before, after, hchildren, hpath⟩
    exact ⟨before.reverse, after, hchildren, by simpa using hpath⟩

theorem Cursor.Within.children {root : Node} {c d : Cursor} (h : c.Within root)
    (hd : d ∈ c.children) : d.Within root := by
  obtain ⟨before, after, hchildren, hpath⟩ := mem_children_iff.mp hd
  have hchild : ∀ n ∈ before.reverse ++ d.node :: after, n ∈ root.preorder := fun n hn =>
    Node.mem_preorder_of_mem_children h.node (hchildren ▸ hn)
  refine ⟨hchild d.node (by simp), ?_⟩
  rw [hpath]
  exact List.forall_mem_cons.mpr ⟨fun n hn => hchild n (by simp [hn]), h.before⟩

theorem Node.cursors_within {root : Node} {c : Cursor} (h : c ∈ root.cursors) : c.Within root := by
  refine forall_mem_unroll (P := Cursor.Within root) (fun c _ hc d => hc.children) ?_ c h
  intro c hc
  obtain rfl := List.mem_singleton.mp hc
  exact ⟨root.mem_preorder_self, by simp⟩

/-! ## Comments -/

theorem Frame.comments_sublist_run (f : Frame) :
    f.comments.Sublist (f.before.takeWhile Node.isComment) := by
  unfold comments
  dsimp only
  split
  · exact List.Sublist.refl _
  · split
    · exact List.filter_sublist
    · exact List.Sublist.refl _

theorem Frame.comments_subset_run (f : Frame) :
    f.comments ⊆ f.before.takeWhile Node.isComment :=
  f.comments_sublist_run.subset

theorem Frame.comments_sublist (f : Frame) : f.comments.Sublist f.before :=
  f.comments_sublist_run.trans (List.takeWhile_sublist _)

theorem Frame.comments_subset (f : Frame) : f.comments ⊆ f.before :=
  f.comments_sublist.subset

theorem mem_leadingFrom {n m : Node} {path : List Frame} (h : m ∈ leadingFrom n path) :
    ∃ f ∈ path, m ∈ f.comments := by
  induction path generalizing n with
  | nil => cases h
  | cons f path ih =>
    unfold leadingFrom at h
    split at h
    · split at h
      · obtain ⟨g, hg, hm⟩ := ih h
        exact ⟨g, List.mem_cons_of_mem _ hg, hm⟩
      · cases h
    · exact ⟨f, List.mem_cons_self, List.mem_reverse.mp h⟩

/-- The comments that lead a node are nodes of its tree. -/
theorem leadingComments_mem_preorder {root : Node} {c : Cursor} (h : c ∈ root.cursors) {m : Node}
    (hm : m ∈ c.leadingComments) : m ∈ root.preorder := by
  obtain ⟨f, hf, hm⟩ := mem_leadingFrom hm
  exact (Node.cursors_within h).before f hf m (f.comments_subset hm)

end CommentTypes
