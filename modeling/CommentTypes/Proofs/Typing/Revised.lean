import CommentTypes.Proofs.Check.Visit
import CommentTypes.Proofs.Tree.Stripped
import CommentTypes.Proofs.Typing.Functions
import Mathlib.Data.List.Forall2

/-!
# What signatures do not depend on

The signatures of a file are read from its functions and from the comments that lead them. Of all
other nodes it only matters where they stand. A tree is revised (`Node.Revised`) by exchanging
calls, assignments and other plain nodes for one another, with all that is below them if no function
is there, and by giving comments other texts with the same tags, as where a directive becomes a
remark.

A revised node is like the old one from outside (`Node.Alike`), which is enough for the comments
that lead the nodes after it or below it (`forall₂_leadingFrom`), and it defines the same function
if it defines one (`Revised.functionName?_eq`). So a revised tree has the same signatures
(`Registry.collect_of_revised`). `Registry.signatures_of_functions` says what the signatures of a
tree are, and that they depend on nothing else. They do depend on whether anything stands between a
function and the comment with its tags (`Registry.callBetween_signatures`).
-/

namespace CommentTypes

/-! ## Lists of related items -/

section Related

variable {α β : Type} {R : α → β → Prop} {p : α → Bool} {q : β → Bool} {as : List α} {bs : List β}

theorem forall₂_takeWhile (h : List.Forall₂ R as bs) (hpq : ∀ a b, R a b → q b = p a) :
    List.Forall₂ R (as.takeWhile p) (bs.takeWhile q) := by
  induction h with
  | nil => exact .nil
  | @cons a b as bs hab _ ih =>
    rw [List.takeWhile_cons, List.takeWhile_cons, hpq _ _ hab]
    split
    · exact .cons hab ih
    · exact .nil

theorem forall₂_dropWhile (h : List.Forall₂ R as bs) (hpq : ∀ a b, R a b → q b = p a) :
    List.Forall₂ R (as.dropWhile p) (bs.dropWhile q) := by
  induction h with
  | nil => exact .nil
  | @cons a b as bs hab hrest ih =>
    rw [List.dropWhile_cons, List.dropWhile_cons, hpq _ _ hab]
    split
    · exact ih
    · exact .cons hab hrest

theorem forall₂_filter (h : List.Forall₂ R as bs) (hpq : ∀ a b, R a b → q b = p a) :
    List.Forall₂ R (as.filter p) (bs.filter q) :=
  List.rel_filter (fun a b hab => show p a = true ↔ q b = true by rw [hpq a b hab]) h

theorem any_of_forall₂ (h : List.Forall₂ R as bs) (hpq : ∀ a b, R a b → q b = p a) :
    bs.any q = as.any p := by
  induction h with
  | nil => rfl
  | cons hab _ ih => rw [List.any_cons, List.any_cons, hpq _ _ hab, ih]

theorem rel_head? (h : List.Forall₂ R as bs) : Option.Rel R as.head? bs.head? := by
  cases h with
  | nil => exact .none
  | cons hab _ => exact .some hab

theorem rel_find? (h : List.Forall₂ R as bs) (hpq : ∀ a b, R a b → q b = p a) :
    Option.Rel R (as.find? p) (bs.find? q) := by
  rw [← List.head?_filter, ← List.head?_filter]
  exact rel_head? (forall₂_filter h hpq)

theorem rel_cases {a : Option α} {b : Option β} (h : Option.Rel R a b) :
    a = none ∧ b = none ∨ ∃ x y, a = some x ∧ b = some y ∧ R x y := by
  cases h with
  | none => exact .inl ⟨rfl, rfl⟩
  | some hxy => exact .inr ⟨_, _, rfl, rfl, hxy⟩

end Related

/-! ## Nodes that are alike from outside -/

/-- A call, an assignment, or a node of which nothing is asked. -/
def Kind.isPlain : Kind → Bool
  | .call | .assignment | .compoundAssignment | .other _ => true
  | _ => false

/-- The tags in the body of a comment, with all words as characters. -/
def Tags.spelling (body : String) : List (List Char × List Char) × Option (List Char) :=
  ((paramsOf body).map fun p => (p.1.toList, p.2.toList), (returnsOf body).map String.toList)

theorem Tags.spelling_eq_iff {body body' : String} : spelling body = spelling body' ↔
    paramsOf body = paramsOf body' ∧ returnsOf body = returnsOf body' := by
  have hword : Function.Injective String.toList := fun _ _ => String.toList_injective
  have hpair : Function.Injective fun p : String × TypeName => (p.1.toList, p.2.toList) :=
    fun _ _ h => Prod.ext (hword (congrArg Prod.fst h)) (hword (congrArg Prod.snd h))
  rw [spelling, spelling, Prod.mk.injEq, hpair.list_map.eq_iff, (Option.map_injective hword).eq_iff]

namespace Node

/-- The nodes stand in the same role and on the same rows, and are of one kind, unless both are
plain. If they are names they have the same text, and if they are comments the same tags. -/
structure Alike (n m : Node) : Prop where
  kind : m.kind = n.kind ∨ n.kind.isPlain = true ∧ m.kind.isPlain = true
  role : m.role = n.role
  named : m.named = n.named
  start : m.start.row = n.start.row
  stop : m.stop.row = n.stop.row
  name : n.role = some .name → m.text = n.text
  tags : n.isComment = true →
    Tags.paramsOf m.body = Tags.paramsOf n.body ∧ Tags.returnsOf m.body = Tags.returnsOf n.body

-- strings are compared by their characters, which the kernel can list
instance (n m : Node) : Decidable (n.Alike m) :=
  decidable_of_iff ((m.kind = n.kind ∨ n.kind.isPlain = true ∧ m.kind.isPlain = true) ∧
      m.role = n.role ∧ m.named = n.named ∧ m.start.row = n.start.row ∧ m.stop.row = n.stop.row ∧
      (n.role = some .name → m.text.toList = n.text.toList) ∧
      (n.isComment = true → Tags.spelling m.body = Tags.spelling n.body)) <| by
    simp only [String.toList_inj, Tags.spelling_eq_iff]
    exact ⟨fun ⟨kind, role, named, start, stop, name, tags⟩ =>
        ⟨kind, role, named, start, stop, name, tags⟩,
      fun h => ⟨h.kind, h.role, h.named, h.start, h.stop, h.name, h.tags⟩⟩

namespace Alike

variable {n m : Node}

/-- What is said of no plain kind is said of both nodes or of none. -/
theorem kind_congr (h : n.Alike m) {p : Kind → Bool} (hp : ∀ k, k.isPlain = true → p k = false) :
    p m.kind = p n.kind := by
  rcases h.kind with heq | ⟨hn, hm⟩
  · rw [heq]
  · rw [hp _ hn, hp _ hm]

theorem kind_eq_iff (h : n.Alike m) {k : Kind} (hk : k.isPlain = false) :
    m.kind = k ↔ n.kind = k := by
  have hne : ∀ j : Kind, j.isPlain = true → decide (j = k) = false := fun j hj =>
    decide_eq_false fun e => by
      rw [e, hk] at hj
      cases hj
  exact decide_eq_decide.mp (h.kind_congr (p := fun j => decide (j = k)) hne)

theorem isComment_eq (h : n.Alike m) : m.isComment = n.isComment :=
  decide_eq_decide.mpr (h.kind_eq_iff rfl)

theorem isProper_eq (h : n.Alike m) : m.isProper = n.isProper := by
  rw [isProper, isProper, h.named, h.isComment_eq]

theorem sharesComments_eq (h : n.Alike m) : m.kind.sharesComments = n.kind.sharesComments :=
  h.kind_congr fun k hk => by cases k <;> simp_all [Kind.isPlain, Kind.sharesComments]

end Alike

end Node

/-- The frames have parents and siblings that are alike. -/
structure Frame.Alike (f g : Frame) : Prop where
  parent : f.parent.Alike g.parent
  before : List.Forall₂ Node.Alike f.before g.before

section Leading

variable {f g : Frame} {n m : Node} {path path' : List Frame}

theorem Frame.Alike.comments (h : f.Alike g) : List.Forall₂ Node.Alike f.comments g.comments := by
  have hrun := forall₂_takeWhile h.before fun _ _ hab => hab.isComment_eq
  have hrest := forall₂_dropWhile h.before fun _ _ hab => hab.isComment_eq
  unfold Frame.comments
  dsimp only
  generalize f.before.dropWhile Node.isComment = rest at hrest ⊢
  generalize g.before.dropWhile Node.isComment = rest' at hrest ⊢
  cases hrest with
  | nil => exact hrun
  | @cons s t _ _ hst _ =>
    dsimp only
    rw [hst.named, hst.stop]
    split
    · exact forall₂_filter hrun fun _ _ hab => by rw [hab.start]
    · exact hrun

theorem Frame.Alike.opens_eq (h : f.Alike g) (hn : n.Alike m) : g.opens m = f.opens n := by
  rw [opens, opens, hn.isProper_eq, any_of_forall₂ h.before fun _ _ hab => hab.isProper_eq]

/-- Comments that are alike lead nodes that are alike. -/
theorem forall₂_leadingFrom (hn : n.Alike m) (hpath : List.Forall₂ Frame.Alike path path') :
    List.Forall₂ Node.Alike (leadingFrom n path) (leadingFrom m path') := by
  induction hpath generalizing n m with
  | nil => exact .nil
  | @cons f g path path' hfg _ ih =>
    have hcomments := hfg.comments
    unfold leadingFrom
    generalize f.comments = found at hcomments ⊢
    generalize g.comments = found' at hcomments ⊢
    cases hcomments with
    | nil =>
      dsimp only
      rw [hfg.parent.sharesComments_eq, hfg.opens_eq hn]
      split
      · exact ih hfg.parent
      · exact .nil
    | cons hab hrest => exact List.rel_reverse (.cons hab hrest)

/-- Comments that are alike give the same tags. -/
theorem ofBodies_of_forall₂ {ns ms : List Node} (h : List.Forall₂ Node.Alike ns ms)
    (hns : ∀ n ∈ ns, n.isComment = true) :
    Tags.ofBodies (ms.map Node.body) = Tags.ofBodies (ns.map Node.body) := by
  simp only [Tags.ofBodies, List.flatMap_map, List.findSome?_map, Function.comp_def, Tags.mk.injEq]
  induction h with
  | nil => exact ⟨rfl, rfl⟩
  | @cons n m ns ms hnm _ ih =>
    obtain ⟨hn, hns⟩ := List.forall_mem_cons.mp hns
    obtain ⟨hparams, hreturns⟩ := hnm.tags hn
    rw [List.flatMap_cons, List.flatMap_cons, List.findSome?_cons, List.findSome?_cons, hparams,
      hreturns, (ih hns).1, (ih hns).2]
    exact ⟨rfl, rfl⟩

end Leading

/-! ## Revised trees -/

namespace Node

theorem functionName?_of_isPlain {n : Node} (h : n.kind.isPlain = true) :
    n.functionName? = none := by
  unfold functionName?
  cases hk : n.kind <;> simp_all [Kind.isPlain, Kind.declaresFunction]

theorem role_of_child? {n c : Node} {role : Role} (h : n.child? role = some c) :
    c.role = some role := by
  simpa using List.find?_some h

/-- No function is defined in the tree. -/
def FunctionFree (n : Node) : Prop :=
  ∀ k ∈ n.preorder, ∀ name, ¬ k.DefinesFunction name

instance (n : Node) : Decidable n.FunctionFree :=
  decidable_of_iff (∀ k ∈ n.preorder, k.functionName? = none)
    (forall₂_congr fun _ _ => functionName?_eq_none_iff)

theorem FunctionFree.of_mem_children {n c : Node} (h : n.FunctionFree) (hc : c ∈ n.children) :
    c.FunctionFree := fun k hk =>
  h k (preorder_subset (mem_preorder_of_mem_children (mem_preorder_self n) hc) hk)

/-- One tree comes from another by exchanging plain nodes, and comments with the same tags. -/
inductive Revised : Node → Node → Prop
  /-- A node gives way to one that is alike, and what is below it is revised. -/
  | kept {n m : Node} (alike : n.Alike m) (below : List.Forall₂ Revised n.children m.children) :
      Revised n m
  /-- A plain node without functions gives way to another one, with all that is below it. -/
  | replaced {n m : Node} (alike : n.Alike m) (plain : n.kind.isPlain = true)
      (free : n.FunctionFree) (free' : m.FunctionFree) : Revised n m

namespace Revised

variable {n m : Node}

theorem alike : Revised n m → n.Alike m
  | kept alike _ => alike
  | replaced alike _ _ _ => alike

/-- A node that is not plain keeps its children, each of them revised. -/
theorem forall₂_children (h : Revised n m) (hn : n.kind.isPlain = false) :
    List.Forall₂ Revised n.children m.children := by
  cases h with
  | kept _ below => exact below
  | replaced _ plain _ _ =>
    rw [hn] at plain
    cases plain

theorem iff_alike : Revised n m ↔ n.Alike m ∧ (List.Forall₂ Revised n.children m.children ∨
    n.kind.isPlain = true ∧ n.FunctionFree ∧ m.FunctionFree) := by
  constructor
  · rintro (⟨alike, below⟩ | ⟨alike, plain, free, free'⟩)
    · exact ⟨alike, .inl below⟩
    · exact ⟨alike, .inr ⟨plain, free, free'⟩⟩
  · rintro ⟨alike, below | ⟨plain, free, free'⟩⟩
    · exact .kept alike below
    · exact .replaced alike plain free free'

mutual

/-- Decides whether a tree is another one revised. -/
def decRevised : ∀ n m : Node, Decidable (Revised n m)
  | .node label children, m =>
    have : Decidable (List.Forall₂ Revised (node label children).children m.children) :=
      decRevisedAll children m.children
    decidable_of_iff _ iff_alike.symm
termination_by structural n => n

/-- Decides whether trees are others revised, one by one. -/
def decRevisedAll : ∀ ns ms : List Node, Decidable (List.Forall₂ Revised ns ms)
  | [], [] => isTrue .nil
  | [], _ :: _ => isFalse (by rintro ⟨⟩)
  | _ :: _, [] => isFalse (by rintro ⟨⟩)
  | n :: ns, m :: ms =>
    have := decRevised n m
    have := decRevisedAll ns ms
    decidable_of_iff _ List.forall₂_cons.symm
termination_by structural ns => ns

end

instance (n m : Node) : Decidable (Revised n m) :=
  decRevised n m

theorem rel_child? (h : Revised n m) (hn : n.kind.isPlain = false) (role : Role) :
    Option.Rel Revised (n.child? role) (m.child? role) :=
  rel_find? (h.forall₂_children hn) fun _ _ hab => by rw [hab.alike.role]

/-- Parentheses are revised by revising what is inside. -/
theorem rel_inner? (h : Revised n m) : Option.Rel Revised n.inner? m.inner? := by
  by_cases hn : n.kind = .parenthesized
  · have hm : m.kind = .parenthesized := (h.alike.kind_eq_iff rfl).mpr hn
    rw [inner?, inner?, if_pos hn, if_pos hm]
    exact rel_head? (forall₂_filter (h.forall₂_children (by rw [hn]; rfl)) fun _ _ hab =>
      hab.alike.isProper_eq)
  · have hm : m.kind ≠ .parenthesized := fun hm => hn ((h.alike.kind_eq_iff rfl).mp hm)
    rw [inner?_of_kind hn, inner?_of_kind hm]
    exact .none

/-- A value is a function before and after a revision, or neither before nor after. -/
theorem isFunction_eq (h : Revised n m) : m.isFunction = n.isFunction := by
  rw [isFunction_eq_unwrap, isFunction_eq_unwrap]
  induction n using inner_induction generalizing m with
  | bare n hn _ =>
    obtain ⟨-, hm⟩ | ⟨c, d, hc, -⟩ := rel_cases h.rel_inner?
    · rw [unwrap_of_bare hn, unwrap_of_bare hm]
      exact h.alike.kind_congr fun k hk => by cases k <;> simp_all [Kind.isPlain, Kind.isFunction]
    · rw [hn] at hc
      cases hc
  | wrapped n c hn ih =>
    obtain ⟨hnone, -⟩ | ⟨c', d, hc, hd, hcd⟩ := rel_cases h.rel_inner?
    · rw [hn] at hnone
      cases hnone
    · obtain rfl := Option.some.inj (hn.symm.trans hc)
      rw [unwrap_of_inner? hc, unwrap_of_inner? hd]
      exact ih hcd

theorem nameText?_eq (h : Revised n m) (hn : n.kind.isPlain = false) :
    m.nameText? = n.nameText? := by
  rw [nameText?, nameText?]
  obtain ⟨hc, hd⟩ | ⟨c, d, hc, hd, hcd⟩ := rel_cases (h.rel_child? hn .name)
  · rw [hc, hd]
  · rw [hc, hd, Option.map_some, Option.map_some, hcd.alike.name (role_of_child? hc)]

theorem boundName?_eq (h : Revised n m) (hn : n.kind.isPlain = false) :
    m.boundName? = n.boundName? := by
  rw [boundName?, boundName?, identifierIn?, identifierIn?]
  obtain ⟨hc, hd⟩ | ⟨c, d, hc, hd, hcd⟩ := rel_cases (h.rel_child? hn .name)
  · rw [hc, hd]
  · rw [hc, hd]
    simp only [hcd.alike.name (role_of_child? hc), hcd.alike.kind_eq_iff (k := .identifier) rfl]

theorem any_isFunction_eq (h : Revised n m) (hn : n.kind.isPlain = false) (role : Role) :
    (m.child? role).any isFunction = (n.child? role).any isFunction := by
  obtain ⟨hc, hd⟩ | ⟨c, d, hc, hd, hcd⟩ := rel_cases (h.rel_child? hn role)
  · rw [hc, hd]
  · rw [hc, hd, Option.any_some, Option.any_some, hcd.isFunction_eq]

/-- A revised node defines the same function. -/
theorem functionName?_eq (h : Revised n m) : m.functionName? = n.functionName? := by
  cases hn : n.kind.isPlain with
  | true =>
    have hm : m.kind.isPlain = true := h.alike.kind.elim (fun heq => heq ▸ hn) And.right
    rw [functionName?_of_isPlain hn, functionName?_of_isPlain hm]
  | false =>
    have hdeclares : m.kind.declaresFunction = n.kind.declaresFunction :=
      h.alike.kind_congr fun k hk => by cases k <;> simp_all [Kind.isPlain, Kind.declaresFunction]
    unfold functionName?
    simp only [hdeclares, h.alike.kind_eq_iff (k := .variableDeclarator) rfl, h.nameText?_eq hn,
      h.boundName?_eq hn, h.any_isFunction_eq hn]

end Revised

end Node

/-! ## Cursors of revised trees -/

/-- The node is revised, and what stands around it is alike. -/
structure Cursor.Revised (c d : Cursor) : Prop where
  node : c.node.Revised d.node
  path : List.Forall₂ Frame.Alike c.path d.path

namespace Cursor.Revised

variable {c d : Cursor} {stack stack' : List Cursor}

theorem tags_eq (h : c.Revised d) : d.tags = c.tags := by
  refine ofBodies_of_forall₂ (forall₂_leadingFrom h.node.alike h.path) fun n hn => ?_
  obtain ⟨f, -, hf⟩ := mem_leadingFrom hn
  exact List.all_eq_true.mp List.all_takeWhile n (f.comments_subset_run hf)

theorem signature?_eq (h : c.Revised d) : d.signature? = c.signature? := by
  rw [signature?, signature?, h.node.functionName?_eq, h.tags_eq]

theorem forall₂_siblings {p q : Node} {path path' : List Frame}
    {before before' rest rest' : List Node} (hparent : p.Alike q)
    (hpath : List.Forall₂ Frame.Alike path path')
    (hbefore : List.Forall₂ Node.Alike before before')
    (hrest : List.Forall₂ Node.Revised rest rest') :
    List.Forall₂ Revised (siblings p path before rest) (siblings q path' before' rest') := by
  induction hrest generalizing before before' with
  | nil => exact .nil
  | cons hnm _ ih =>
    exact .cons ⟨hnm, .cons ⟨hparent, hbefore⟩ hpath⟩ (ih (.cons hnm.alike hbefore))

/-- The children are revised, or no function is below the one node or the other. -/
theorem children (h : c.Revised d) : List.Forall₂ Revised c.children d.children ∨
    c.node.FunctionFree ∧ d.node.FunctionFree := by
  obtain ⟨n, path⟩ := c
  obtain ⟨m, path'⟩ := d
  obtain ⟨hnode, hpath⟩ := h
  cases hnode with
  | kept alike below => exact .inl (forall₂_siblings alike hpath .nil below)
  | replaced _ _ free free' => exact .inr ⟨free, free'⟩

theorem functionFree_of_mem_children (h : c.node.FunctionFree) (hd : d ∈ c.children) :
    d.node.FunctionFree := by
  refine h.of_mem_children ?_
  rw [← map_node_children]
  exact List.mem_map_of_mem hd

theorem signatures_of_functionFree (h : ∀ c ∈ stack, c.node.FunctionFree) :
    (unroll Cursor.children (fun d => d.node.size) total_size_children_lt stack).filterMap
      signature? = [] := by
  refine List.filterMap_eq_nil_iff.mpr fun c hc => ?_
  have hfree : c.node.FunctionFree := forall_mem_unroll (P := fun c => c.node.FunctionFree)
    (fun _ _ ha _ hb => functionFree_of_mem_children ha hb) h c hc
  rw [signature?, Node.functionName?_eq_none_iff.mpr (hfree _ (Node.mem_preorder_self _)),
    Option.map_none]

/-- The functions below the cursors of two stacks have the same signatures, if the cursors of the
one stack are those of the other revised. -/
theorem signatures_unroll : ∀ {stack stack' : List Cursor}, List.Forall₂ Revised stack stack' →
    (unroll Cursor.children (fun d => d.node.size) total_size_children_lt stack').filterMap
        signature? =
      (unroll Cursor.children (fun d => d.node.size) total_size_children_lt stack).filterMap
        signature?
  | [], _, .nil => rfl
  | c :: stack, d :: stack', .cons hcd hrest => by
    have hbelow : (unroll Cursor.children (fun d => d.node.size) total_size_children_lt
          (d.children ++ stack')).filterMap signature? =
        (unroll Cursor.children (fun d => d.node.size) total_size_children_lt
          (c.children ++ stack)).filterMap signature? := by
      rcases hcd.children with hchildren | ⟨hfree, hfree'⟩
      · exact signatures_unroll (List.rel_append hchildren hrest)
      · rw [unroll_append, unroll_append, List.filterMap_append, List.filterMap_append,
          signatures_of_functionFree fun _ hb => functionFree_of_mem_children hfree hb,
          signatures_of_functionFree fun _ hb => functionFree_of_mem_children hfree' hb,
          signatures_unroll hrest]
    rw [unroll_cons, unroll_cons, List.filterMap_cons, List.filterMap_cons, hcd.signature?_eq,
      hbelow]
termination_by stack => total (fun d => d.node.size) stack
decreasing_by
  all_goals
    have := total_size_children_lt c
    simp only [total_append, total_cons]
    omega

end Cursor.Revised

namespace Registry

/-- A revised tree has the same signatures, and they are reported in the same way. -/
theorem collect_of_revised {root root' : Node} (h : root.Revised root') :
    collect root' = collect root := by
  have hsignatures : root'.cursors.filterMap Cursor.signature? =
      root.cursors.filterMap Cursor.signature? :=
    Cursor.Revised.signatures_unroll (.cons ⟨h, .nil⟩ .nil)
  rw [collect, collect, ofTree, ofTree, hsignatures]

/-- A function that is defined twice, with another one inside, and a last statement. -/
def outlineOfTwice (last : List Outline.Entry) : List Outline.Entry :=
  [.rule "program" "" 0 118 6, .rule "comment" "" 0 19 0, .rule "function_declaration" "" 20 52 2,
    .rule "identifier" "name" 29 30 0, .rule "statement_block" "body" 33 52 1,
    .rule "function_declaration" "" 35 50 1, .rule "identifier" "name" 44 45 0,
    .rule "comment" "" 53 74 0, .rule "comment" "" 75 94 0, .rule "lexical_declaration" "" 95 112 1,
    .rule "variable_declarator" "" 99 111 2, .rule "identifier" "name" 99 100 0,
    .rule "parenthesized_expression" "value" 103 111 1, .rule "arrow_function" "" 104 110 0] ++
    last

/-- The mark that ends checking stands between the two functions, and a call comes last. -/
def calledTwice : Source :=
  .ofOutline "a.js"
    "/** @returns \x7bT\x7d */\nfunction f() \x7b function g() \x7b\x7d \x7d\n/*: skip-remaining */\n/** @param \x7bU\x7d a */\nlet f = (a => a);\nf(1);"
    (outlineOfTwice
      [.rule "expression_statement" "" 113 118 1, .rule "call_expression" "" 113 117 2,
        .rule "identifier" "function" 113 114 0, .rule "arguments" "arguments" 114 117 1,
        .rule "number" "" 115 116 0])

/-- There is a remark in place of the mark, and an assignment in place of the call. -/
def assignedTwice : Source :=
  .ofOutline "a.js"
    "/** @returns \x7bT\x7d */\nfunction f() \x7b function g() \x7b\x7d \x7d\n/* nothing follows */\n/** @param \x7bU\x7d a */\nlet f = (a => a);\nf=10;"
    (outlineOfTwice
      [.rule "expression_statement" "" 113 118 1, .rule "assignment_expression" "" 113 117 2,
        .rule "identifier" "left" 113 114 0, .rule "number" "right" 115 117 0])

/-- A comment with a tag, and a function behind it. -/
def outlineOfTagged (between : List Outline.Entry) : List Outline.Entry :=
  [.rule "program" "" 0 40 (if between.isEmpty then 2 else 3), .rule "comment" "" 0 19 0] ++
    between ++ [.rule "function_declaration" "" 25 40 1, .rule "identifier" "name" 34 35 0]

/-- A call stands between the comment and the function. -/
def callBetween : Source :=
  .ofOutline "a.js" "/** @returns \x7bT\x7d */ h(); function g() \x7b\x7d"
    (outlineOfTagged
      [.rule "expression_statement" "" 20 24 1, .rule "call_expression" "" 20 23 2,
        .rule "identifier" "function" 20 21 0, .rule "arguments" "arguments" 21 23 0])

/-- Blanks stand in place of the call. -/
def blanksBetween : Source :=
  .ofOutline "a.js" "/** @returns \x7bT\x7d */      function g() \x7b\x7d" (outlineOfTagged [])

/-- A comment with a tag, and a variable behind it that is a function. -/
def outlineOfBound (marks : List Outline.Entry) : List Outline.Entry :=
  [.rule "program" "" 0 58 2, .rule "comment" "" 0 19 0,
    .rule "lexical_declaration" "" 20 58 (marks.length + 1)] ++ marks ++
    [.rule "variable_declarator" "" 46 57 2, .rule "identifier" "name" 46 47 0,
      .rule "arrow_function" "value" 50 57 0]

/-- The mark that ends checking stands before the variable. -/
def markBetween : Source :=
  .ofOutline "a.js" "/** @returns \x7bT\x7d */ let /*: skip-remaining */ f = () => 1;"
    (outlineOfBound [.rule "comment" "" 24 45 0])

/-- Blanks stand in place of the mark. -/
def unmarkedBetween : Source :=
  .ofOutline "a.js" "/** @returns \x7bT\x7d */ let                       f = () => 1;"
    (outlineOfBound [])

end Registry

end CommentTypes
