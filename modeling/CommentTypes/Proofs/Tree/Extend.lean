import CommentTypes.Proofs.Tree.Below

/-!
# Trees with more children at the root

A tree whose root has more children at its end lists the nodes of the smaller tree first, and then
what hangs below the new children (`preorder_of_children_append`, `cursors_of_children_append`).
The cursors at the old nodes have another root at the end of their path (`Cursor.rebase`) and are
otherwise the same; the comments that lead a node do not depend on the root
(`leadingComments_rebase`).
-/

namespace CommentTypes

/-- The path with another root at its end. -/
def rebasePath (root : Node) : List Frame → List Frame
  | [] => []
  | [f] => [{ f with parent := root }]
  | f :: g :: path => f :: rebasePath root (g :: path)

/-- The cursor in a tree with another root. -/
def Cursor.rebase (root : Node) (c : Cursor) : Cursor :=
  ⟨c.node, rebasePath root c.path⟩

theorem rebasePath_cons (root : Node) (f : Frame) {path : List Frame} (h : path ≠ []) :
    rebasePath root (f :: path) = f :: rebasePath root path := by
  cases path with
  | nil => exact absurd rfl h
  | cons g path => rfl

theorem leadingFrom_rebasePath (root n : Node) (path : List Frame) :
    leadingFrom n (rebasePath root path) = leadingFrom n path := by
  induction path generalizing n with
  | nil => rfl
  | cons f path ih =>
    cases path with
    | nil =>
      -- above the children of a root there are no comments, whatever the root is
      have hroot : ∀ g : Frame, leadingFrom n [g] = g.comments.reverse := by
        intro g
        rw [leadingFrom]
        split
        · rename_i hnone
          rw [hnone, leadingFrom, ite_self]
          rfl
        · rfl
      exact (hroot _).trans (hroot f).symm
    | cons g path =>
      rw [rebasePath, leadingFrom, leadingFrom, ih]

@[simp]
theorem leadingComments_rebase (root : Node) (c : Cursor) :
    (c.rebase root).leadingComments = c.leadingComments :=
  leadingFrom_rebasePath ..

/-! ## Siblings and what hangs below them -/

namespace Cursor

theorem siblings_append (parent : Node) (path : List Frame) (before ms ns : List Node) :
    siblings parent path before (ms ++ ns) =
      siblings parent path before ms ++ siblings parent path (ms.reverse ++ before) ns := by
  induction ms generalizing before with
  | nil => rfl
  | cons m ms ih =>
    rw [List.cons_append, siblings, siblings, ih, List.reverse_cons, List.append_assoc]
    rfl

theorem map_rebase_siblings (root parent : Node) {path : List Frame} (h : path ≠ [])
    (before rest : List Node) :
    (siblings parent path before rest).map (rebase root) =
      siblings parent (rebasePath root path) before rest := by
  induction rest generalizing before with
  | nil => rfl
  | cons n rest ih => rw [siblings, List.map_cons, ih, siblings, rebase, rebasePath_cons root _ h]

theorem map_rebase_siblings_nil (root parent : Node) (before rest : List Node) :
    (siblings parent [] before rest).map (rebase root) = siblings root [] before rest := by
  induction rest generalizing before with
  | nil => rfl
  | cons n rest ih => rw [siblings, List.map_cons, ih, siblings, rebase, rebasePath]

theorem map_rebase_children (root : Node) {c : Cursor} (h : c.path ≠ []) :
    c.children.map (rebase root) = (c.rebase root).children :=
  map_rebase_siblings root c.node h [] c.node.children

theorem path_ne_nil_of_mem_children {c d : Cursor} (h : d ∈ c.children) : d.path ≠ [] := by
  obtain ⟨before, after, -, hpath⟩ := mem_children_iff.mp h
  rw [hpath]
  exact List.cons_ne_nil _ _

end Cursor

namespace Node

variable {root root' : Node} {added : List Node}

theorem cursors_eq (root : Node) : root.cursors = ⟨root, []⟩ ::
    unroll Cursor.children (fun c => c.node.size) Cursor.total_size_children_lt
      (Cursor.siblings root [] [] root.children) := by
  rw [cursors, Cursor.preorder, unroll_cons, List.append_nil]
  rfl

/-- The nodes below the root are listed first, and then what hangs below the new children. -/
theorem preorder_of_children_append (h : root'.children = root.children ++ added) :
    root'.preorder =
      root' :: (root.preorder.tail ++ unroll children size total_size_children_lt added) := by
  rw [preorder, preorder, unroll_cons, unroll_cons, List.append_nil, List.append_nil, h,
    unroll_append, List.tail_cons]

/-- So are the cursors, which have another root at the end of their path. -/
theorem cursors_of_children_append (h : root'.children = root.children ++ added) :
    ∃ more, root'.cursors =
      ⟨root', []⟩ :: (root.cursors.tail.map (Cursor.rebase root') ++ more) := by
  have hpath : ∀ c ∈ root.cursors.tail, c.path ≠ [] := by
    rw [cursors_eq, List.tail_cons]
    exact forall_mem_unroll (P := fun c => c.path ≠ [])
      (fun _ _ _ _ hd => Cursor.path_ne_nil_of_mem_children hd)
      fun _ hd => Cursor.path_ne_nil_of_mem_children (c := ⟨root, []⟩) hd
  have hold : root.cursors.tail.map (Cursor.rebase root') =
      unroll Cursor.children (fun c => c.node.size) Cursor.total_size_children_lt
        (Cursor.siblings root' [] [] root.children) := by
    rw [cursors_eq, List.tail_cons] at hpath ⊢
    rw [← Cursor.map_rebase_siblings_nil root' root]
    exact map_unroll_of_mem _ fun c hc => Cursor.map_rebase_children _ (hpath c hc)
  rw [cursors_eq root', h, Cursor.siblings_append, unroll_append, hold]
  exact ⟨_, rfl⟩

/-- Below a root that is no comment, the new comments come last. -/
theorem comments_of_children_append (h : root'.children = root.children ++ added)
    (hroot : root.isComment = false) (hroot' : root'.isComment = false) :
    root'.comments =
      root.comments ++ (unroll children size total_size_children_lt added).filter isComment := by
  have htail : root.comments = root.preorder.tail.filter isComment := by
    rw [comments, preorder, unroll_cons, List.tail_cons, List.filter_cons, hroot]
    rfl
  rw [htail, comments, preorder_of_children_append h, List.filter_cons, hroot',
    List.filter_append]
  rfl

end Node

end CommentTypes
