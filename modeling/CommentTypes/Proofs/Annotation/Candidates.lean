import CommentTypes.Proofs.Annotation.Trailing

/-!
# Comments that may type a node

The comments that are looked at for the type of a node are those that lead it, and then the
documentation comments that end on the line above it. All of them end before the node: the first
ones stand before it or before a statement that it opens (`leadingComments_apart`), the others end
on an earlier line (`stop_le_of_documents`).

Comments are tokens (`Node.IsToken`), so in an ordered tree each ends before the next one starts
(`Tokenized.comments_apart`), and none is taken for another that covers the same bytes. What is
looked at is therefore known exactly, and in its order (`candidates_in_order`).
-/

namespace CommentTypes

open Relation (ReflTransGen)

/-! ## Nodes without nodes below them -/

/-- The node covers a part of the text, and there are no nodes below it. -/
structure Node.IsToken (n : Node) : Prop where
  leaf : n.children = []
  nonempty : n.start.byte < n.stop.byte

instance : DecidablePred Node.IsToken := fun n =>
  decidable_of_iff (n.children.isEmpty = true ∧ n.start.byte < n.stop.byte)
    ⟨fun h => ⟨List.isEmpty_iff.mp h.1, h.2⟩, fun h => ⟨List.isEmpty_iff.mpr h.leaf, h.nonempty⟩⟩

/-- If each node of a stack ends before the next one starts, a node without nodes below it ends
before all that is listed after it. -/
theorem Node.unroll_leaves {stack : List Node}
    (hn : ∀ n ∈ unroll children size total_size_children_lt stack, n.Nested)
    (hs : stack.Pairwise fun a b => a.stop.byte ≤ b.start.byte) :
    (unroll children size total_size_children_lt stack).Pairwise
      fun a b => a.children = [] → a.stop.byte ≤ b.start.byte := by
  induction stack using unroll.induct children size total_size_children_lt with
  | case1 => simp
  | case2 a stack ih =>
    rw [unroll_cons] at hn ⊢
    obtain ⟨ha, hrest⟩ := List.forall_mem_cons.mp hn
    obtain ⟨has, hs⟩ := List.pairwise_cons.mp hs
    refine List.pairwise_cons.mpr ⟨fun b hb hleaf => ?_, ih hrest ?_⟩
    · -- what follows a leaf hangs below the rest of the stack
      rw [hleaf, List.nil_append] at hb hrest
      exact le_start_of_mem_unroll hrest has b hb
    · exact List.pairwise_append.mpr
        ⟨ha.apart, hs, fun c hc b hb => Nat.le_trans (ha.within c hc).2 (has b hb)⟩

/-- What a parser promises of the tree of a text: its nodes are in order, their rows are those of
the text, and its comments are tokens. -/
structure Source.Tokenized (s : Source) : Prop where
  wellFormed : s.WellFormed
  stops : ∀ n ∈ s.root.preorder, n.stop.row = lineFeeds s.text n.stop.byte
  tokens : ∀ m ∈ s.comments, m.IsToken

instance (s : Source) : Decidable s.Tokenized :=
  decidable_of_iff (s.WellFormed ∧
      (∀ n ∈ s.root.preorder, n.stop.row = lineFeeds s.text n.stop.byte) ∧
      ∀ m ∈ s.comments, m.IsToken)
    ⟨fun h => ⟨h.1, h.2.1, h.2.2⟩, fun h => ⟨h.wellFormed, h.stops, h.tokens⟩⟩

namespace Source.Tokenized

variable {s : Source}

/-- Each comment of a file ends before the next one starts. -/
theorem comments_apart (h : s.Tokenized) :
    s.comments.Pairwise fun a b => a.stop.byte ≤ b.start.byte := by
  have hleaves : s.root.preorder.Pairwise fun a b => a.children = [] → a.stop.byte ≤ b.start.byte :=
    Node.unroll_leaves h.wellFormed.ordered (List.pairwise_singleton ..)
  have hcomments : s.comments.Pairwise fun a b => a.children = [] → a.stop.byte ≤ b.start.byte := by
    rw [s.comments_eq]
    exact hleaves.filter _
  exact hcomments.imp_of_mem fun ha _ hapart => hapart (h.tokens _ ha).leaf

/-- Comments that each end before the next one starts are in source order. -/
theorem pairwise_start_lt (h : s.Tokenized) {ms : List Node} (hms : ∀ m ∈ ms, m ∈ s.comments)
    (hapart : ms.Pairwise fun a b => a.stop.byte ≤ b.start.byte) :
    ms.Pairwise fun a b => a.start.byte < b.start.byte :=
  hapart.imp_of_mem fun ha _ hab => Nat.lt_of_lt_of_le (h.tokens _ (hms _ ha)).nonempty hab

/-- No two comments of a file cover the same bytes. -/
theorem spans_nodup (h : s.Tokenized) : (s.comments.map Node.span).Nodup := by
  rw [List.nodup_iff_pairwise_ne, List.pairwise_map]
  refine (h.pairwise_start_lt (fun _ => id) h.comments_apart).imp fun {a b} hab heq => ?_
  exact Nat.ne_of_lt hab (congrArg Prod.fst heq)

end Source.Tokenized

/-! ## Comments that lead a node -/

namespace Cursor

variable {root : Node} {t c : Cursor}

/-- A node starts no earlier than a statement that it opens. -/
theorem start_le_of_opens (h : root.Ordered) (ht : t ∈ root.cursors)
    (hup : ReflTransGen Opens t c) : c ∈ root.cursors ∧ t.node.start.byte ≤ c.node.start.byte := by
  induction hup with
  | refl => exact ⟨ht, Nat.le_refl _⟩
  | tail _ hopens ih =>
    obtain ⟨hb, hle⟩ := ih
    obtain ⟨before, after, hchildren, -⟩ := mem_children_iff.mp hopens.child
    refine ⟨mem_cursors_of_mem_children hb hopens.child, Nat.le_trans hle ?_⟩
    exact ((h _ (Node.cursors_within hb).node).within _ (by simp [hchildren])).1

/-- The siblings before a node end before it, each before the next one. -/
theorem before_apart (h : root.Ordered) (ht : t ∈ root.cursors) {f : Frame} {path : List Frame}
    (hpath : t.path = f :: path) :
    (∀ m ∈ f.before, m.stop.byte ≤ t.node.start.byte) ∧
      f.before.reverse.Pairwise fun a b => a.stop.byte ≤ b.start.byte := by
  obtain ⟨hp, after, hchildren⟩ := parent_mem_cursors ht hpath
  have hapart := (h _ (Node.cursors_within hp).node).apart
  dsimp only at hapart
  rw [hchildren, List.pairwise_append] at hapart
  exact ⟨fun m hm => hapart.2.2 m (List.mem_reverse.mpr hm) _ List.mem_cons_self, hapart.1⟩

/-- The comments that lead a node end before it, each before the next one. -/
theorem leadingComments_apart (h : root.Ordered) (hc : c ∈ root.cursors) :
    (∀ m ∈ c.leadingComments, m.stop.byte ≤ c.node.start.byte) ∧
      c.leadingComments.Pairwise fun a b => a.stop.byte ≤ b.start.byte := by
  by_cases hnone : c.leadingComments = []
  · simp [hnone]
  · obtain ⟨t, f, path, hup, ht, hpath, hcomments⟩ := exists_frame_of_leadingComments hc hnone
    obtain ⟨hbefore, hapart⟩ := before_apart h ht hpath
    rw [hcomments]
    refine ⟨fun m hm => ?_, hapart.sublist f.comments_sublist.reverse⟩
    exact Nat.le_trans (hbefore m (f.comments_subset (List.mem_reverse.mp hm)))
      (start_le_of_opens h ht hup).2

end Cursor

/-! ## Comments on the line above -/

namespace Source

variable {s : Source}

theorem docsAbove_sublist (n : Node) (seen : List (Nat × Nat)) (comments : List Node) :
    (docsAbove n seen comments).Sublist comments := by
  induction comments generalizing seen with
  | nil => exact .slnil
  | cons m comments ih =>
    rw [docsAbove]
    split
    · exact (ih _).cons_cons m
    · exact (ih _).cons m

/-- What ends on the line above a node ends before it. -/
theorem Tokenized.stop_le_of_documents (h : s.Tokenized) {m n : Node} (hm : m ∈ s.root.preorder)
    (hn : n ∈ s.root.preorder) (hdoc : m.Documents n) : m.stop.byte ≤ n.start.byte := by
  refine Nat.le_of_not_lt fun hlt => ?_
  have hrows := lineFeeds_mono s.text (Nat.le_of_lt hlt)
  rw [← h.stops m hm, ← h.wellFormed.placed n hn, ← hdoc.above] at hrows
  exact Nat.not_succ_le_self _ hrows

theorem mem_preorder_of_mem_comments {m : Node} (hm : m ∈ s.comments) : m ∈ s.root.preorder := by
  rw [s.comments_eq] at hm
  exact (List.mem_filter.mp hm).1

theorem nodup_of_start_lt {ms : List Node}
    (h : ms.Pairwise fun a b => a.start.byte < b.start.byte) : ms.Nodup := by
  refine List.nodup_iff_pairwise_ne.mpr (h.imp fun {a b} hab => ?_)
  rintro rfl
  exact Nat.lt_irrefl _ hab

/-- The comments that may type a node, in order. Where the nodes of a tree are in order and its
comments are tokens, the comments that are looked at for a node end before it, and none of them is
looked at twice. First come those that lead the node, in source order, and then, again in source
order, all documentation comments of the file that end on the line above the node and do not lead
it. -/
theorem candidates_in_order (s : Source) (h : s.Tokenized) (c : Cursor) (hc : c ∈ s.root.cursors) :
    (∀ m ∈ s.candidates c, m ∈ s.comments ∧ m.stop.byte ≤ c.node.start.byte) ∧
    (s.candidates c).Nodup ∧
    ∃ above, s.candidates c = c.leadingComments ++ above ∧
      c.leadingComments.Pairwise (fun a b => a.start.byte < b.start.byte) ∧
      above.Pairwise (fun a b => a.start.byte < b.start.byte) ∧
      ∀ m, m ∈ above ↔ m ∈ s.comments ∧ m ∉ c.leadingComments ∧ m.Documents c.node := by
  have hspans := h.spans_nodup
  have hnode := (Node.cursors_within hc).node
  obtain ⟨hleadStop, hleadApart⟩ := Cursor.leadingComments_apart h.wellFormed.ordered hc
  have hlead := h.pairwise_start_lt (fun m hm => mem_comments_of_leads hc hm) hleadApart
  let above := docsAbove c.node (c.leadingComments.map Node.span) s.comments
  have hsublist : above.Sublist s.comments := docsAbove_sublist ..
  have habove := h.pairwise_start_lt (fun m hm => hsublist.subset hm)
    (h.comments_apart.sublist hsublist)
  have hmem : ∀ m, m ∈ above ↔ m ∈ s.comments ∧ m ∉ c.leadingComments ∧ m.Documents c.node :=
    fun m => mem_docsAbove_leading_iff hspans hc
  refine ⟨fun m hm => ?_, ?_, above, rfl, hlead, habove, hmem⟩
  · rcases List.mem_append.mp hm with hm | hm
    · exact ⟨mem_comments_of_leads hc hm, hleadStop m hm⟩
    · obtain ⟨hcomment, -, hdoc⟩ := (hmem m).mp hm
      exact ⟨hcomment, h.stop_le_of_documents (mem_preorder_of_mem_comments hcomment) hnode hdoc⟩
  · exact List.nodup_append.mpr ⟨nodup_of_start_lt hlead, nodup_of_start_lt habove,
      fun a ha b hb heq => ((hmem b).mp hb).2.1 (heq ▸ ha)⟩

/-- A declaration with two comments before it, and two more behind the statement on the line
above. -/
def crowdedComments : Source :=
  .ofOutline "a.js"
    "let a = 1; /** x */ /** y */\n/* p */ /* q */ export let b = 2;"
    [.rule "program" "" 0 62 6, .rule "lexical_declaration" "" 0 10 1,
      .rule "variable_declarator" "" 4 9 2, .rule "identifier" "name" 4 5 0,
      .rule "number" "value" 8 9 0, .rule "comment" "" 11 19 0, .rule "comment" "" 20 28 0,
      .rule "comment" "" 29 36 0, .rule "comment" "" 37 44 0, .rule "export_statement" "" 45 62 1,
      .rule "lexical_declaration" "declaration" 52 62 1, .rule "variable_declarator" "" 56 61 2,
      .rule "identifier" "name" 56 57 0, .rule "number" "value" 60 61 0]

theorem crowdedComments_in_order :
    let c := crowdedComments.root.cursorAt 11
    (crowdedComments.Tokenized ∧ c ∈ crowdedComments.root.cursors ∧
      c.node.kind = .variableDeclarator) ∧
    (c.leadingComments.map Node.id = [7, 8] ∧
      (crowdedComments.candidates c).map Node.id = [7, 8, 5, 6]) ∧
    (∀ m ∈ crowdedComments.candidates c, m.stop.byte ≤ c.node.start.byte) ∧
    (crowdedComments.candidates c).Nodup ∧
    ∃ above, crowdedComments.candidates c = c.leadingComments ++ above ∧
      ∀ m, m ∈ above ↔
        m ∈ crowdedComments.comments ∧ m ∉ c.leadingComments ∧ m.Documents c.node := by
  intro c
  have hs : crowdedComments.Tokenized := by decide +kernel
  have hc : c ∈ crowdedComments.root.cursors := Node.cursorAt_mem _ _
  obtain ⟨hbefore, hnodup, above, heq, -, -, habove⟩ := candidates_in_order crowdedComments hs c hc
  exact ⟨⟨hs, hc, by decide +kernel⟩, ⟨by decide +kernel, by decide +kernel⟩,
    fun m hm => (hbefore m hm).2, hnodup, above, heq, habove⟩

end Source

end CommentTypes
