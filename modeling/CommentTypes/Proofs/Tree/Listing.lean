import CommentTypes.Proofs.Tree.Address

/-!
# The loop over a tree

A tree is listed by a loop over a stack of nodes. Each turn takes the node on top, lists it, and puts
its children on the stack, the first on top (`Loop.turn`). The weight of the stack goes down by one
with each turn, so the loop ends after as many turns as the tree has nodes (`turns_reverse`). At any
turn, what is still to be listed is what a recursion lists of the nodes on the stack
(`unroll_eq_listingAll`).

An address leads to one node of the tree at most (`Node.at?`). The addresses that lead to a node are
those of the cursors (`exists_cursor_iff`), so the loop lists every node once.
-/

namespace CommentTypes

open Address

/-! ## Turns -/

/-- The loop between two turns: the stack, with its top at the end, and what has been listed. -/
structure Loop where
  stack : List Node
  listed : List Node := []

namespace Loop

/-- Takes the node on top of the stack, lists it, and puts its children on the stack, the first on
top. There is no turn with an empty stack. -/
def turn (l : Loop) : Option Loop :=
  match l.stack.getLast? with
  | none => none
  | some n => some { stack := l.stack.dropLast ++ n.children.reverse, listed := l.listed ++ [n] }

/-- The loop after some turns, if there are so many. -/
def turns : Nat → Loop → Option Loop
  | 0, l => some l
  | k + 1, l => l.turn.bind (turns k)

theorem turn_concat (stack listed : List Node) (n : Node) :
    turn ⟨stack ++ [n], listed⟩ = some ⟨stack ++ n.children.reverse, listed ++ [n]⟩ := by
  simp only [turn, List.getLast?_concat, List.dropLast_concat]

/-- The loop ends after as many turns as there are nodes below the stack, and has listed them as
they are unrolled. -/
theorem turns_reverse (stack listed : List Node) :
    turns (total Node.size stack) ⟨stack.reverse, listed⟩ =
      some ⟨[], listed ++ unroll Node.children Node.size Node.total_size_children_lt stack⟩ := by
  induction stack using unroll.induct Node.children Node.size Node.total_size_children_lt
    generalizing listed with
  | case1 => simp [turns]
  | case2 n stack ih =>
    have hweight : total Node.size (n :: stack) = total Node.size (n.children ++ stack) + 1 := by
      rw [total_cons, total_append, Node.size_eq, Node.sizeAll_eq_total]
      omega
    rw [hweight, turns, List.reverse_cons, turn_concat, Option.bind_some, ← List.reverse_append, ih,
      unroll_cons, List.append_assoc, List.singleton_append]

end Loop

namespace Node

/-! ## Recursion -/

mutual

/-- The node, and then what the children list, from left to right. -/
def listing : Node → List Node
  | .node label children => .node label children :: listingAll children

/-- What several nodes list, one after the other. -/
def listingAll : List Node → List Node
  | [] => []
  | n :: rest => n.listing ++ listingAll rest

end

theorem listing_eq (n : Node) : n.listing = n :: listingAll n.children := by
  cases n
  rw [listing, children]

theorem listingAll_append (ns ms : List Node) :
    listingAll (ns ++ ms) = listingAll ns ++ listingAll ms := by
  induction ns with
  | nil => rw [listingAll, List.nil_append, List.nil_append]
  | cons n ns ih => rw [List.cons_append, listingAll, listingAll, ih, List.append_assoc]

/-- A stack is unrolled into what its nodes list by the recursion. -/
theorem unroll_eq_listingAll (stack : List Node) :
    unroll children size total_size_children_lt stack = listingAll stack := by
  induction stack using unroll.induct children size total_size_children_lt with
  | case1 => rw [unroll_nil, listingAll]
  | case2 n stack ih =>
    rw [unroll_cons, ih, listingAll_append, listingAll, listing_eq, List.cons_append]

/-- The pre-order is the one that a recursion over the tree gives. -/
theorem preorder_eq_listing (n : Node) : n.preorder = n.listing := by
  rw [preorder, unroll_eq_listingAll, listingAll, listingAll, List.append_nil]

/-! ## Addresses -/

/-- The node at an address: the number of siblings before it, at each level from the node up. -/
def at? (root : Node) : List Nat → Option Node
  | [] => some root
  | i :: above => (root.at? above).bind (·.children[i]?)

variable {root n : Node}

theorem at?_address {c : Cursor} (h : c ∈ root.cursors) : root.at? c.address = some c.node := by
  refine forall_mem_unroll (P := fun c => root.at? c.address = some c.node)
    (fun c _ hc d hd => ?_) (fun c hc => ?_) c h
  · obtain ⟨before, after, hchildren, hpath⟩ := Cursor.mem_children_iff.mp hd
    have haddress : d.address = before.length :: c.address := by
      rw [Cursor.address, hpath]
      rfl
    rw [haddress, at?, hc, Option.bind_some, hchildren, ← List.length_reverse,
      List.getElem?_append_right (Nat.le_refl _), Nat.sub_self, List.getElem?_cons_zero]
  · obtain rfl := List.mem_singleton.mp hc
    rfl

theorem exists_cursor_of_at? {p : List Nat} (h : root.at? p = some n) :
    ∃ c ∈ root.cursors, c.address = p ∧ c.node = n := by
  induction p generalizing n with
  | nil => exact ⟨⟨root, []⟩, subset_unroll _ List.mem_cons_self, rfl, Option.some.inj h⟩
  | cons i above ih =>
    obtain ⟨m, hm, hchild⟩ := Option.bind_eq_some_iff.mp h
    obtain ⟨c, hc, rfl, rfl⟩ := ih hm
    obtain ⟨hi, rfl⟩ := List.getElem?_eq_some_iff.mp hchild
    refine ⟨⟨c.node.children[i], ⟨c.node, (c.node.children.take i).reverse⟩ :: c.path⟩,
      mem_unroll_of_mem_below hc (Cursor.mem_children_iff.mpr
        ⟨_, c.node.children.drop (i + 1), ?_, rfl⟩), ?_, rfl⟩
    · rw [List.reverse_reverse, List.getElem_cons_drop, List.take_append_drop]
    · rw [Cursor.address, List.map_cons, List.length_reverse, List.length_take,
        Nat.min_eq_left (Nat.le_of_lt hi), ← Cursor.address]

/-- The addresses of a tree are those of its cursors. -/
theorem exists_cursor_iff {p : List Nat} :
    (∃ c ∈ root.cursors, c.address = p) ↔ ∃ n, root.at? p = some n := by
  constructor
  · rintro ⟨c, hc, rfl⟩
    exact ⟨c.node, at?_address hc⟩
  · rintro ⟨n, hn⟩
    obtain ⟨c, hc, haddress, -⟩ := exists_cursor_of_at? hn
    exact ⟨c, hc, haddress⟩

end Node

/-- In a list that is sorted by a strict order, the order tells which of two items comes first. -/
theorem lt_iff_of_pairwise {α : Type} {r : α → α → Prop} (hr : ∀ a b, r a b → ¬ r b a) {l : List α}
    (h : l.Pairwise r) {i j : Nat} {a b : α} (ha : l[i]? = some a) (hb : l[j]? = some b) :
    i < j ↔ r a b := by
  obtain ⟨hi, rfl⟩ := List.getElem?_eq_some_iff.mp ha
  obtain ⟨hj, rfl⟩ := List.getElem?_eq_some_iff.mp hb
  have hsorted := List.pairwise_iff_getElem.mp h
  constructor
  · exact hsorted i j hi hj
  · intro hab
    rcases Nat.lt_trichotomy i j with hlt | rfl | hgt
    · exact hlt
    · exact absurd hab (hr _ _ hab)
    · exact absurd (hsorted j i hj hi hgt) (hr _ _ hab)

/-- A tree is listed in pre-order. The loop over the stack ends after as many turns as the tree has
nodes and lists what the recursion lists. This is every node of the tree once: the list is one of
nodes at different addresses, to which belongs every address that leads to a node, and an item comes
before another exactly if the other one hangs below it or stands to its right. The comments of a
file are the comments in this list. -/
theorem listed_in_preorder (root : Node) :
    Loop.turns root.size ⟨[root], []⟩ = some ⟨[], root.listing⟩ ∧
    root.preorder = root.listing ∧
    (∃ places : List (List Nat),
      places.map root.at? = root.listing.map some ∧ places.Nodup ∧
      (∀ p, p ∈ places ↔ ∃ n, root.at? p = some n) ∧
      ∀ (i j : Nat) p q, places[i]? = some p → places[j]? = some q → (i < j ↔ Before p q)) ∧
    ∀ path text, (Source.ofTree path text root).comments = root.listing.filter Node.isComment := by
  have hlisting := root.preorder_eq_listing
  have horder : (root.cursors.map Cursor.address).Pairwise Before :=
    List.pairwise_map.mpr root.cursors_in_order
  refine ⟨?_, hlisting, ⟨root.cursors.map Cursor.address, ?_, ?_, fun p => ?_, ?_⟩, fun _ _ => ?_⟩
  · have hturns := Loop.turns_reverse [root] []
    rwa [total_cons, total_nil, Nat.add_zero, List.reverse_singleton, List.nil_append,
      ← Node.preorder, hlisting] at hturns
  · rw [← hlisting, ← map_node_cursors, List.map_map, List.map_map]
    exact List.map_congr_left fun c hc => Node.at?_address hc
  · exact horder.imp Before.ne
  · rw [List.mem_map, Node.exists_cursor_iff]
  · intro i j p q hp hq
    exact lt_iff_of_pairwise (fun _ _ => Before.asymm) horder hp hq
  · rw [← hlisting]
    rfl

/-- A call with a comment among its arguments and one behind it. -/
def commentedCall : Source :=
  .ofOutline "a.js" "f(/*a*/ 1); // b"
    [.rule "program" "" 0 16 2, .rule "expression_statement" "" 0 11 1,
      .rule "call_expression" "" 0 10 2, .rule "identifier" "function" 0 1 0,
      .rule "arguments" "arguments" 1 10 2, .rule "comment" "" 2 7 0, .rule "number" "" 8 9 0,
      .rule "comment" "" 12 16 0]

theorem commentedCall_listed :
    ((commentedCall.root.at? [0, 1, 0, 0]).isSome = true ∧
      (commentedCall.root.at? [1]).isSome = true ∧ Before [0, 1, 0, 0] [1]) ∧
    (∃ (places : List (List Nat)) (i j : Nat),
      places.map commentedCall.root.at? = commentedCall.root.listing.map some ∧
      places[i]? = some [0, 1, 0, 0] ∧ places[j]? = some [1] ∧ i < j) ∧
    (Source.ofTree "a.js" commentedCall.text commentedCall.root).comments =
      commentedCall.root.listing.filter Node.isComment := by
  have hinner : (commentedCall.root.at? [0, 1, 0, 0]).isSome = true := by decide +kernel
  have hlast : (commentedCall.root.at? [1]).isSome = true := by decide +kernel
  have hbefore : Before [0, 1, 0, 0] [1] := .inr ⟨[0, 1, 0], 0, [], 1, [], rfl, rfl, by decide⟩
  obtain ⟨-, -, ⟨places, hplaces, -, hmem, horder⟩, hcomments⟩ :=
    listed_in_preorder commentedCall.root
  obtain ⟨i, hi⟩ := List.mem_iff_getElem?.mp ((hmem _).mpr (Option.isSome_iff_exists.mp hinner))
  obtain ⟨j, hj⟩ := List.mem_iff_getElem?.mp ((hmem _).mpr (Option.isSome_iff_exists.mp hlast))
  exact ⟨⟨hinner, hlast, hbefore⟩,
    ⟨places, i, j, hplaces, hi, hj, (horder i j _ _ hi hj).mpr hbefore⟩, hcomments _ _⟩

end CommentTypes
