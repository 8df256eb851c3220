import CommentTypes.Proofs.Tree.Below
import CommentTypes.Typing.Signature
import Mathlib.Data.List.Nodup
import Mathlib.Logic.Relation

/-!
# A comment leads one node

The comments that lead a node stand in a run right before the node, or before a statement that the
node opens (`Cursor.Opens`), or before one that this statement opens in turn. Both ways lead back to
one node only: what a run of comments stands before is the first sibling after it that is no comment
(`Cursor.RunsUpTo.eq`), and a statement is opened by one child (`Cursor.opens_rightUnique`).

So no comment leads two nodes, statements that hand their comments down aside
(`leadingComments_disjoint`), and no two functions take their types from one comment
(`comments_lead_one_node`).
-/

namespace CommentTypes

open Relation (ReflTransGen)

/-- A list has one first item with a property, and one part before it. -/
theorem append_cons_inj_of_first {α : Type} {p : α → Bool} {xs ys as bs : List α} {a b : α}
    (h : xs ++ a :: as = ys ++ b :: bs) (hxs : ∀ x ∈ xs, p x = false)
    (hys : ∀ y ∈ ys, p y = false) (ha : p a = true) (hb : p b = true) :
    xs = ys ∧ a = b := by
  induction xs generalizing ys with
  | nil =>
    cases ys with
    | nil => exact ⟨rfl, (List.cons.inj h).1⟩
    | cons y ys =>
      obtain ⟨rfl, -⟩ := List.cons.inj h
      rw [hys a List.mem_cons_self] at ha
      cases ha
  | cons x xs ih =>
    obtain ⟨hx, hxs⟩ := List.forall_mem_cons.mp hxs
    cases ys with
    | nil =>
      obtain ⟨rfl, -⟩ := List.cons.inj h
      rw [hx] at hb
      cases hb
    | cons y ys =>
      obtain ⟨rfl, htail⟩ := List.cons.inj h
      obtain ⟨rfl, rfl⟩ := ih htail hxs (List.forall_mem_cons.mp hys).2
      exact ⟨rfl, rfl⟩

/-! ## Places in a tree -/

section Unroll

variable {α : Type} {below : α → List α} {weight : α → Nat}
  {lighter : ∀ a, total weight (below a) < weight a}

/-- What is listed was on the stack, or hangs directly below something listed. -/
theorem mem_stack_or_below {stack : List α} {b : α}
    (hb : b ∈ unroll below weight lighter stack) :
    b ∈ stack ∨ ∃ a ∈ unroll below weight lighter stack, b ∈ below a := by
  induction stack using unroll.induct below weight lighter with
  | case1 => simp at hb
  | case2 a stack ih =>
    rw [unroll_cons] at hb ⊢
    rcases List.mem_cons.mp hb with rfl | hb
    · exact .inl List.mem_cons_self
    · rcases ih hb with hs | ⟨a', ha', hb'⟩
      · rcases List.mem_append.mp hs with hc | hs
        · exact .inr ⟨a, List.mem_cons_self, hc⟩
        · exact .inl (List.mem_cons_of_mem _ hs)
      · exact .inr ⟨a', List.mem_cons_of_mem _ ha', hb'⟩

end Unroll

namespace Cursor

theorem mem_cursors_of_mem_children {root : Node} {p c : Cursor} (hp : p ∈ root.cursors)
    (hc : c ∈ p.children) : c ∈ root.cursors :=
  mem_unroll_of_mem_below hp hc

/-- The path of a cursor starts at the node of which it stands at a child. -/
theorem parent_mem_cursors {root : Node} {c : Cursor} (hc : c ∈ root.cursors) {f : Frame}
    {path : List Frame} (hpath : c.path = f :: path) :
    ⟨f.parent, path⟩ ∈ root.cursors ∧
      ∃ after, f.parent.children = f.before.reverse ++ c.node :: after := by
  rcases mem_stack_or_below hc with hroot | ⟨p, hp, hchild⟩
  · obtain rfl := List.mem_singleton.mp hroot
    cases hpath
  · obtain ⟨before, after, hchildren, hpath'⟩ := mem_children_iff.mp hchild
    obtain ⟨rfl, rfl⟩ := List.cons.inj (hpath.symm.trans hpath')
    exact ⟨hp, after, hchildren⟩

end Cursor

/-- The nodes of the tree can be told apart. -/
def Node.Distinct (root : Node) : Prop :=
  (root.preorder.map Node.id).Nodup

instance (root : Node) : Decidable root.Distinct :=
  inferInstanceAs (Decidable (List.Nodup _))

/-- A node stands in one place. -/
theorem Node.Distinct.cursor_eq {root : Node} (h : root.Distinct) {c d : Cursor}
    (hc : c ∈ root.cursors) (hd : d ∈ root.cursors) (hnode : c.node = d.node) : c = d := by
  rw [Distinct, ← map_node_cursors, List.map_map] at h
  exact List.inj_on_of_nodup_map h hc hd (congrArg Node.id hnode)

/-! ## Statements and what opens them -/

namespace Cursor

/-- The node of `p` hands its comments down to its first proper child, at which `c` stands. -/
structure Opens (p c : Cursor) : Prop where
  shares : p.node.kind.sharesComments = true
  child : c ∈ p.children
  first : ∃ f ∈ c.path.head?, f.opens c.node = true

/-- One child opens a statement. -/
theorem opens_rightUnique : Relator.RightUnique Opens := by
  rintro p c d ⟨-, hc, f, hf, hfirst⟩ ⟨-, hd, g, hg, hfirst'⟩
  obtain ⟨before, after, hchildren, hpath⟩ := mem_children_iff.mp hc
  obtain ⟨before', after', hchildren', hpath'⟩ := mem_children_iff.mp hd
  simp only [hpath, List.head?_cons, Option.mem_some_iff] at hf
  simp only [hpath', List.head?_cons, Option.mem_some_iff] at hg
  subst hf hg
  simp only [Frame.opens, Bool.and_eq_true, Bool.not_eq_true', List.any_eq_false,
    Bool.not_eq_true] at hfirst hfirst'
  obtain ⟨hbefore, hnode⟩ := append_cons_inj_of_first (hchildren.symm.trans hchildren')
    (fun n hn => hfirst.2 n (List.mem_reverse.mp hn))
    (fun n hn => hfirst'.2 n (List.mem_reverse.mp hn)) hfirst.1 hfirst'.1
  cases c
  cases d
  simp only [List.reverse_inj] at hbefore
  simp_all

/-- A statement that is opened is no comment. -/
theorem Opens.not_isComment {p c : Cursor} (h : p.Opens c) : p.node.isComment = false := by
  have hshares := h.shares
  cases hk : p.node.kind <;> simp_all [Kind.sharesComments, Node.isComment]

/-- Nothing opens a node that does not hand its comments down. -/
theorem eq_of_reflTransGen_opens {c d : Cursor} (h : ReflTransGen Opens c d)
    (hc : c.node.kind.sharesComments = false) : c = d := by
  rcases h.cases_head with rfl | ⟨e, he, -⟩
  · rfl
  · rw [he.shares] at hc
    cases hc

/-! ## Runs of comments -/

/-- Between the nodes of `k` and `t`, which are siblings, there is nothing but comments. -/
def RunsUpTo (k t : Cursor) : Prop :=
  ∃ (p : Cursor) (before between after : List Node),
    p.node.children = before.reverse ++ k.node :: (between ++ t.node :: after) ∧
    k.path = ⟨p.node, before⟩ :: p.path ∧
    t.path = ⟨p.node, between.reverse ++ k.node :: before⟩ :: p.path ∧
    ∀ m ∈ between, m.isComment = true

/-- A run of comments ends before one node. -/
theorem RunsUpTo.eq {k t u : Cursor} (ht : k.RunsUpTo t) (hu : k.RunsUpTo u)
    (hct : t.node.isComment = false) (hcu : u.node.isComment = false) : t = u := by
  obtain ⟨p, before, between, after, hchildren, hk, hpath, hrun⟩ := ht
  obtain ⟨p', before', between', after', hchildren', hk', hpath', hrun'⟩ := hu
  obtain ⟨hframe, hup⟩ := List.cons.inj (hk.symm.trans hk')
  obtain ⟨hparent, rfl⟩ := Frame.mk.inj hframe
  rw [hparent, hchildren'] at hchildren
  obtain ⟨rfl, hnode⟩ := append_cons_inj_of_first (p := fun n => !n.isComment)
    (List.cons.inj (List.append_cancel_left hchildren)).2
    (fun m hm => by simp [hrun' m hm]) (fun m hm => by simp [hrun m hm]) (by simp [hcu])
    (by simp [hct])
  cases t
  cases u
  simp_all

/-- The comments right before a node stand in a run. -/
theorem exists_runsUpTo {root : Node} {t : Cursor} (ht : t ∈ root.cursors) {f : Frame}
    {path : List Frame} (hpath : t.path = f :: path) {m : Node}
    (hm : m ∈ f.before.takeWhile Node.isComment) :
    ∃ k ∈ root.cursors, k.node = m ∧ k.RunsUpTo t := by
  obtain ⟨hp, after, hchildren⟩ := parent_mem_cursors ht hpath
  obtain ⟨nearer, farther, hrun⟩ := List.append_of_mem hm
  have hnearer : ∀ n ∈ nearer, n.isComment = true := fun n hn =>
    List.all_eq_true.mp List.all_takeWhile n (hrun ▸ List.mem_append_left _ hn)
  -- all that stands before the comment, the other comments of the run first
  let rest := farther ++ f.before.dropWhile Node.isComment
  have hbefore : f.before = nearer ++ m :: rest := by
    rw [← List.takeWhile_append_dropWhile (p := Node.isComment) (l := f.before), hrun,
      List.append_assoc, List.cons_append]
  have hsplit : f.parent.children = rest.reverse ++ m :: (nearer.reverse ++ t.node :: after) := by
    rw [hchildren, hbefore]
    simp
  refine ⟨⟨m, ⟨f.parent, rest⟩ :: path⟩, mem_cursors_of_mem_children hp ?_, rfl, ?_⟩
  · exact mem_children_iff.mpr ⟨rest, _, hsplit, rfl⟩
  · refine ⟨⟨f.parent, path⟩, rest, nearer.reverse, after, hsplit, rfl, ?_, fun n hn =>
      hnearer n (List.mem_reverse.mp hn)⟩
    rw [hpath, List.reverse_reverse, ← hbefore]

/-- The comments that lead a node, if there are any, are those that count before the node, or before
a statement that it opens. -/
theorem exists_frame_of_leadingComments {root : Node} {c : Cursor} (hc : c ∈ root.cursors)
    (h : c.leadingComments ≠ []) :
    ∃ t f path, ReflTransGen Opens t c ∧ t ∈ root.cursors ∧ t.path = f :: path ∧
      c.leadingComments = f.comments.reverse := by
  obtain ⟨n, path⟩ := c
  rw [leadingComments] at h ⊢
  induction path generalizing n with
  | nil => exact absurd rfl h
  | cons f path ih =>
    obtain ⟨hp, after, hchildren⟩ := parent_mem_cursors hc rfl
    dsimp only at h ⊢
    unfold leadingFrom at h ⊢
    split at h
    · split at h
      · rename_i hopens
        obtain ⟨hshares, hfirst⟩ := Bool.and_eq_true_iff.mp hopens
        obtain ⟨t, g, up, hup, ht⟩ := ih f.parent hp h
        rw [if_pos hopens]
        exact ⟨t, g, up, hup.tail ⟨hshares, mem_children_iff.mpr ⟨_, after, hchildren, rfl⟩, f, rfl,
          hfirst⟩, ht⟩
      · exact absurd rfl h
    · exact ⟨_, f, path, .refl, hc, rfl, rfl⟩

/-- A comment that leads a node is one of them. -/
theorem exists_frame_of_leads {root : Node} {c : Cursor} (hc : c ∈ root.cursors) {m : Node}
    (hm : m ∈ c.leadingComments) :
    ∃ t f path, ReflTransGen Opens t c ∧ t ∈ root.cursors ∧ t.path = f :: path ∧
      m ∈ f.comments := by
  obtain ⟨t, f, path, hup, ht, hpath, hcomments⟩ :=
    exists_frame_of_leadingComments hc (List.ne_nil_of_mem hm)
  exact ⟨t, f, path, hup, ht, hpath, List.mem_reverse.mp (hcomments ▸ hm)⟩

/-- It is in the run before that node. -/
theorem exists_run_of_leads {root : Node} {c : Cursor} (hc : c ∈ root.cursors) {m : Node}
    (hm : m ∈ c.leadingComments) :
    ∃ t k, ReflTransGen Opens t c ∧ k ∈ root.cursors ∧ k.node = m ∧ k.RunsUpTo t := by
  obtain ⟨t, f, path, hup, ht, hpath, hcomment⟩ := exists_frame_of_leads hc hm
  obtain ⟨k, hk⟩ := exists_runsUpTo ht hpath (f.comments_subset_run hcomment)
  exact ⟨t, k, hup, hk⟩

/-- What a node that is no comment opens is no comment. -/
theorem not_isComment_of_opens {t c : Cursor} (h : ReflTransGen Opens t c)
    (hc : c.node.isComment = false) : t.node.isComment = false := by
  rcases h.cases_head with rfl | ⟨e, he, -⟩
  · exact hc
  · exact he.not_isComment

end Cursor

/-- A comment leads one node, statements that hand their comments down aside. -/
theorem leadingComments_disjoint {root : Node} (h : root.Distinct) {c d : Cursor}
    (hc : c ∈ root.cursors) (hd : d ∈ root.cursors) (hne : c ≠ d)
    (hcc : c.node.isComment = false) (hcd : d.node.isComment = false)
    (hsc : c.node.kind.sharesComments = false) (hsd : d.node.kind.sharesComments = false) :
    c.leadingComments.Disjoint d.leadingComments := by
  intro m hm hm'
  obtain ⟨t, k, htc, hk, hkm, hkt⟩ := Cursor.exists_run_of_leads hc hm
  obtain ⟨u, l, hud, hl, hlm, hlu⟩ := Cursor.exists_run_of_leads hd hm'
  obtain rfl : k = l := h.cursor_eq hk hl (hkm.trans hlm.symm)
  obtain rfl : t = u := hkt.eq hlu (Cursor.not_isComment_of_opens htc hcc)
    (Cursor.not_isComment_of_opens hud hcd)
  rcases ReflTransGen.total_of_right_unique Cursor.opens_rightUnique htc hud with hcd | hdc
  · exact hne (Cursor.eq_of_reflTransGen_opens hcd hsc)
  · exact hne (Cursor.eq_of_reflTransGen_opens hdc hsd).symm

/-! ## Functions -/

/-- A function is a declaration or a declarator. -/
theorem Node.kind_of_functionName? {n : Node} {name : String} (h : n.functionName? = some name) :
    n.isComment = false ∧ n.kind.sharesComments = false := by
  unfold functionName? at h
  cases hk : n.kind <;> simp_all [Kind.declaresFunction, Kind.sharesComments, isComment]

theorem Cursor.kind_of_signature? {c : Cursor} (h : c.signature?.isSome = true) :
    c.node.isComment = false ∧ c.node.kind.sharesComments = false := by
  obtain ⟨f, hf⟩ := Option.isSome_iff_exists.mp h
  obtain ⟨name, hname, -⟩ := Option.map_eq_some_iff.mp hf
  exact Node.kind_of_functionName? hname

/-- The types of a function are those in the comments that lead it: the parameters of all of them,
and the first type returned. -/
theorem Cursor.signature?_eq_some {c : Cursor} {f : Signature} (h : c.signature? = some f) :
    f.params = c.leadingComments.flatMap (fun m => Tags.paramsOf m.body) ∧
      f.returns = c.leadingComments.findSome? (fun m => Tags.returnsOf m.body) := by
  obtain ⟨name, -, rfl⟩ := Option.map_eq_some_iff.mp h
  refine ⟨?_, ?_⟩
  · rw [tags, Tags.ofBodies, List.flatMap_map]
  · rw [tags, Tags.ofBodies, List.findSome?_map]
    rfl

/-- A signature is that of a function of the tree. -/
theorem Registry.exists_of_find?_ofTree {root : Node} {name : String} {f : Signature}
    (h : (ofTree root).find? name = some f) : ∃ c ∈ root.cursors, c.signature? = some f := by
  rw [find?_ofTree] at h
  exact List.mem_filterMap.mp (List.mem_reverse.mp (List.mem_of_find?_eq_some h))

/-- A comment leads one node. Two different nodes of a tree that are neither comments nor statements
that hand their comments down have no leading comment in common. The types in the signature of a
function are read from the comments that lead the function, so no other function has types from
them. -/
theorem comments_lead_one_node (root : Node) (h : root.Distinct) :
    (∀ c ∈ root.cursors, ∀ d ∈ root.cursors, c ≠ d →
      c.node.isComment = false → d.node.isComment = false →
      c.node.kind.sharesComments = false → d.node.kind.sharesComments = false →
      c.leadingComments.Disjoint d.leadingComments) ∧
    ∀ (name : String) (f : Signature), (Registry.collect root).value.find? name = some f →
      ∃ c ∈ root.cursors, c.signature? = some f ∧
        f.params = c.leadingComments.flatMap (fun m => Tags.paramsOf m.body) ∧
        f.returns = c.leadingComments.findSome? (fun m => Tags.returnsOf m.body) ∧
        ∀ d ∈ root.cursors, c ≠ d → d.signature?.isSome = true →
          c.leadingComments.Disjoint d.leadingComments := by
  refine ⟨fun c hc d hd => leadingComments_disjoint h hc hd, fun name f hf => ?_⟩
  obtain ⟨c, hc, hcf⟩ := Registry.exists_of_find?_ofTree hf
  obtain ⟨hparams, hreturns⟩ := Cursor.signature?_eq_some hcf
  refine ⟨c, hc, hcf, hparams, hreturns, fun d hd hne hsome => ?_⟩
  obtain ⟨hcc, hsc⟩ := Cursor.kind_of_signature? (Option.isSome_of_eq_some hcf)
  obtain ⟨hcd, hsd⟩ := Cursor.kind_of_signature? hsome
  exact leadingComments_disjoint h hc hd hne hcc hcd hsc hsd

theorem Node.cursorAt_mem (root : Node) (i : Nat) : root.cursorAt i ∈ root.cursors := by
  unfold cursorAt
  cases h : root.cursors[i]? with
  | none => exact subset_unroll _ List.mem_cons_self
  | some c => exact List.mem_of_getElem? h

/-- An exported variable that is a function, and a function after two comments. -/
def taggedFunctions : Source :=
  .ofOutline "a.js"
    "/** @returns \x7bstring\x7d */\nexport const f = () => 'x';\n// second\n/** @param \x7bnumber\x7d a */\nfunction g(a) \x7b\x7d"
    [.rule "program" "" 0 104 5, .rule "comment" "" 0 24 0,
      .rule "export_statement" "" 25 52 1, .rule "lexical_declaration" "declaration" 32 52 1,
      .rule "variable_declarator" "" 38 51 2, .rule "identifier" "name" 38 39 0,
      .rule "arrow_function" "value" 42 51 1, .rule "string" "body" 48 51 0,
      .rule "comment" "" 53 62 0, .rule "comment" "" 63 87 0,
      .rule "function_declaration" "" 88 104 1, .rule "identifier" "name" 97 98 0]

theorem taggedFunctions_comments :
    let root := taggedFunctions.root
    (root.Distinct ∧ root.cursorAt 4 ≠ root.cursorAt 10 ∧
      (root.cursorAt 4).node.kind = .variableDeclarator ∧
      (root.cursorAt 10).node.kind = .functionDeclaration ∧
      (Registry.collect root).value.find? "f" = some ⟨"f", [], some "string"⟩) ∧
    ((root.cursorAt 4).leadingComments.map Node.id = [1] ∧
      (root.cursorAt 10).leadingComments.map Node.id = [8, 9] ∧
      (root.cursorAt 4).leadingComments.Disjoint (root.cursorAt 10).leadingComments) ∧
    ∃ c ∈ root.cursors, c.signature? = some ⟨"f", [], some "string"⟩ ∧
      some "string" = c.leadingComments.findSome? (fun m => Tags.returnsOf m.body) ∧
      ∀ d ∈ root.cursors, c ≠ d → d.signature?.isSome = true →
        c.leadingComments.Disjoint d.leadingComments := by
  intro root
  have hdistinct : root.Distinct := by decide +kernel
  have hne : root.cursorAt 4 ≠ root.cursorAt 10 := fun h => by
    have hid : (root.cursorAt 4).node.id ≠ (root.cursorAt 10).node.id := by decide +kernel
    exact hid (congrArg (·.node.id) h)
  have hvariable : (root.cursorAt 4).node.kind = .variableDeclarator := by decide +kernel
  have hfunction : (root.cursorAt 10).node.kind = .functionDeclaration := by decide +kernel
  have hf : (Registry.collect root).value.find? "f" = some ⟨"f", [], some "string"⟩ := by
    decide +kernel
  obtain ⟨hdisjoint, hsignature⟩ := comments_lead_one_node root hdistinct
  obtain ⟨c, hc, hcf, -, hreturns, hother⟩ := hsignature "f" _ hf
  refine ⟨⟨hdistinct, hne, hvariable, hfunction, hf⟩,
    ⟨by decide +kernel, by decide +kernel, ?_⟩, c, hc, hcf, hreturns, hother⟩
  exact hdisjoint _ (root.cursorAt_mem 4) _ (root.cursorAt_mem 10) hne (by decide +kernel)
    (by decide +kernel) (by rw [hvariable]; rfl) (by rw [hfunction]; rfl)

end CommentTypes
