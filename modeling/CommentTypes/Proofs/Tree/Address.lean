import CommentTypes.Proofs.Tree.Below

/-!
# Addresses in pre-order

The address of a cursor says at each level how many siblings stand before it (`Cursor.address`). The
address of a child is that of its parent with one number more, and of two children the first has the
smaller number (`pairwise_leftOf_children`). What is to the left of a node stays there with all that
hangs below it (`LeftOf.mono`), so the stack of the pre-order is always read from left to right, and
the pre-order lists a node before what hangs below it, and left before right (`cursors_in_order`).
This order is strict (`Before.asymm`), so no cursor is listed twice (`cursors_nodup`).
-/

namespace CommentTypes

namespace Address

/-- Two addresses part at some level, where the first one goes further left. -/
def LeftOf (p q : List Nat) : Prop :=
  ∃ below i below' j above, p = below ++ i :: above ∧ q = below' ++ j :: above ∧ i < j

/-- The second address leads below the first one, or to its right. -/
def Before (p q : List Nat) : Prop :=
  (∃ below i, q = below ++ i :: p) ∨ LeftOf p q

variable {p p' q q' : List Nat}

theorem leftOf_of_lt {i j : Nat} (h : i < j) (p : List Nat) : LeftOf (i :: p) (j :: p) :=
  ⟨[], i, [], j, p, rfl, rfl, h⟩

/-- What hangs below two places is to the left and to the right like these. -/
theorem LeftOf.mono (h : LeftOf p q) (hp : p <:+ p') (hq : q <:+ q') : LeftOf p' q' := by
  obtain ⟨below, i, below', j, above, rfl, rfl, hlt⟩ := h
  obtain ⟨more, rfl⟩ := hp
  obtain ⟨more', rfl⟩ := hq
  exact ⟨more ++ below, i, more' ++ below', j, above, (List.append_assoc ..).symm,
    (List.append_assoc ..).symm, hlt⟩

theorem lex_append_left (front : List Nat) (h : List.Lex (· < ·) p q) :
    List.Lex (· < ·) (front ++ p) (front ++ q) := by
  induction front with
  | nil => exact h
  | cons i front ih => exact .cons ih

/-- Read from the root down, addresses come in the order of their first numbers that differ. -/
theorem Before.lex (h : Before p q) : List.Lex (· < ·) p.reverse q.reverse := by
  rcases h with ⟨below, i, rfl⟩ | ⟨below, i, below', j, above, rfl, rfl, hlt⟩
  · rw [List.reverse_append, List.reverse_cons, List.append_assoc]
    simpa using lex_append_left p.reverse (p := []) (q := i :: below.reverse) .nil
  · rw [List.reverse_append, List.reverse_append, List.reverse_cons, List.reverse_cons,
      List.append_assoc, List.append_assoc]
    exact lex_append_left above.reverse (.rel hlt)

theorem Before.asymm (h : Before p q) : ¬ Before q p :=
  fun h' => List.lt_asymm h.lex h'.lex

theorem Before.ne (h : Before p q) : p ≠ q := by
  rintro rfl
  exact h.asymm h

end Address

open Address

namespace Cursor

/-- The number of siblings before the node, at each level of the tree from the node up. -/
def address (c : Cursor) : List Nat :=
  c.path.map fun f => f.before.length

variable {a c d : Cursor}

theorem address_of_mem_children (h : c ∈ a.children) : ∃ i, c.address = i :: a.address := by
  obtain ⟨before, after, -, hpath⟩ := mem_children_iff.mp h
  exact ⟨before.length, by rw [address, hpath]; rfl⟩

theorem address_suffix_of_mem_children (h : c ∈ a.children) : a.address <:+ c.address := by
  obtain ⟨i, hi⟩ := address_of_mem_children h
  exact hi ▸ List.suffix_cons i a.address

theorem pairwise_leftOf_siblings (parent : Node) (path : List Frame) (before rest : List Node) :
    (siblings parent path before rest).Pairwise fun c d => LeftOf c.address d.address := by
  induction rest generalizing before with
  | nil => exact .nil
  | cons n rest ih =>
    refine .cons (fun c hc => ?_) (ih _)
    obtain ⟨earlier, after, -, hpath⟩ := mem_siblings_iff.mp hc
    rw [address, address, hpath]
    refine leftOf_of_lt ?_ _
    simp only [List.length_append, List.length_cons]
    omega

/-- The children of a node stand from left to right. -/
theorem pairwise_leftOf_children (a : Cursor) :
    a.children.Pairwise fun c d => LeftOf c.address d.address :=
  pairwise_leftOf_siblings ..

/-- What hangs below the cursors of a stack continues the address of one of them. -/
theorem address_of_mem_unroll {stack : List Cursor}
    (h : c ∈ unroll children (fun d => d.node.size) total_size_children_lt stack) :
    ∃ a ∈ stack, a.address <:+ c.address :=
  forall_mem_unroll (P := fun c => ∃ a ∈ stack, a.address <:+ c.address)
    (fun _ _ ⟨a, ha, hac⟩ _ hd => ⟨a, ha, hac.trans (address_suffix_of_mem_children hd)⟩)
    (fun a ha => ⟨a, ha, List.suffix_rfl⟩) c h

/-- A stack that is read from left to right is unrolled in the order of the addresses. -/
theorem pairwise_before_unroll {stack : List Cursor}
    (h : stack.Pairwise fun c d => LeftOf c.address d.address) :
    (unroll children (fun d => d.node.size) total_size_children_lt stack).Pairwise
      fun c d => Before c.address d.address := by
  induction stack using unroll.induct children (fun d => d.node.size) total_size_children_lt with
  | case1 => simp
  | case2 a stack ih =>
    rw [unroll_cons]
    obtain ⟨ha, hs⟩ := List.pairwise_cons.mp h
    refine List.pairwise_cons.mpr ⟨fun c hc => ?_, ih ?_⟩
    · obtain ⟨b, hb, hbc⟩ := address_of_mem_unroll hc
      rcases List.mem_append.mp hb with hchild | hb
      · obtain ⟨i, hi⟩ := address_of_mem_children hchild
        obtain ⟨below, hbelow⟩ := hbc
        exact .inl ⟨below, i, by rw [← hbelow, hi]⟩
      · exact .inr ((ha b hb).mono List.suffix_rfl hbc)
    · -- the children that take the place of `a` are left of what `a` was left of
      exact List.pairwise_append.mpr ⟨pairwise_leftOf_children a, hs, fun c hc d hd =>
        (ha d hd).mono (address_suffix_of_mem_children hc) List.suffix_rfl⟩

end Cursor

namespace Node

/-- The pre-order lists a node before what hangs below it, and left before right. -/
theorem cursors_in_order (root : Node) :
    root.cursors.Pairwise fun c d => Before c.address d.address :=
  Cursor.pairwise_before_unroll (List.pairwise_singleton ..)

/-- The pre-order lists no cursor twice. -/
theorem cursors_nodup (root : Node) : root.cursors.Nodup :=
  root.cursors_in_order.imp fun h e => h.ne (congrArg Cursor.address e)

end Node

end CommentTypes
