import CommentTypes.Proofs.Tree.Below
import Mathlib.Data.List.Find

/-!
# Trees without parentheses and comments

`Node.stripped` takes all comments out of a tree and puts the first proper node inside a pair of
parentheses in their place, at every level. What is left has neither (`isStripped_stripped`).

Trees are taken apart as `unwrap` and `stripped` do it: a node is a pair of parentheses with a
proper node inside (`inner?`), or it is bare and keeps its label (`label_stripped`), with the
children that are no comments (`children_stripped`). Where the tree is one of the grammar, a bare node also keeps
its proper children (`properChildren_stripped`) and its children in their roles (`child?_stripped`).
So the node inside the parentheses is the same before and after (`unwrap_stripped`), and so are the
shape (`shape_stripped`), the name and the elements of an expression.
-/

namespace CommentTypes

namespace Node

/-- The node in another role. -/
def withRole (role : Option Role) : Node → Node
  | .node label children => .node { label with role } children

mutual

/-- The tree without comments, and with the first proper node inside each pair of parentheses in
their place and in their role. Parentheses around nothing stay. -/
def stripped : Node → Node
  | .node label children =>
    if label.kind = .parenthesized then
      strippedFirst label.role (.node label (strippedAll children)) children
    else .node label (strippedAll children)

/-- The first proper tree of a list, stripped and in the role given, or else the given tree. -/
def strippedFirst (role : Option Role) (otherwise : Node) : List Node → Node
  | [] => otherwise
  | n :: rest => if n.isProper then n.stripped.withRole role else strippedFirst role otherwise rest

/-- The trees of a list that are no comments, stripped. -/
def strippedAll : List Node → List Node
  | [] => []
  | n :: rest => if n.isComment then strippedAll rest else n.stripped :: strippedAll rest

end

/-- The proper node directly inside the parentheses that a node is. -/
def inner? (n : Node) : Option Node :=
  if n.kind = .parenthesized then n.properChildren.head? else none

/-- There are no comments in the tree, and no parentheses with a proper node inside. -/
def IsStripped (root : Node) : Prop :=
  ∀ n ∈ root.preorder, n.isComment = false ∧ n.inner? = none

/-- What the grammar promises of comments and parentheses: a comment has no role, and parentheses
are a rule of the grammar that stands for an expression, never for an operator or a list of
arguments. -/
structure Grammatical (root : Node) : Prop where
  comment : ∀ n ∈ root.preorder, n.isComment = true → n.role = none
  parenthesized : ∀ n ∈ root.preorder, n.kind = .parenthesized →
    n.named = true ∧ n.role ≠ some .operator ∧ n.role ≠ some .arguments

instance (root : Node) : Decidable root.Grammatical :=
  decidable_of_iff ((∀ n ∈ root.preorder, n.isComment = true → n.role = none) ∧
      ∀ n ∈ root.preorder, n.kind = .parenthesized →
        n.named = true ∧ n.role ≠ some .operator ∧ n.role ≠ some .arguments)
    ⟨fun h => ⟨h.1, h.2⟩, fun h => ⟨h.comment, h.parenthesized⟩⟩

variable {n c : Node}

theorem Grammatical.of_mem (h : n.Grammatical) (hc : c ∈ n.preorder) : c.Grammatical :=
  ⟨fun m hm => h.comment m (preorder_subset hc hm),
    fun m hm => h.parenthesized m (preorder_subset hc hm)⟩

theorem Grammatical.of_mem_children (h : n.Grammatical) (hc : c ∈ n.children) : c.Grammatical :=
  h.of_mem (mem_preorder_of_mem_children (mem_preorder_self n) hc)

theorem Grammatical.of_child? (h : n.Grammatical) {r : Role} (hc : n.child? r = some c) :
    c.Grammatical :=
  h.of_mem (mem_preorder_of_child? (mem_preorder_self n) hc)

/-! ## Nodes in another role -/

section WithRole

variable (role role' : Option Role)

@[simp] theorem kind_withRole : (n.withRole role).kind = n.kind := by cases n; rfl
@[simp] theorem role_withRole : (n.withRole role).role = role := by cases n; rfl
@[simp] theorem text_withRole : (n.withRole role).text = n.text := by cases n; rfl
@[simp] theorem children_withRole : (n.withRole role).children = n.children := by cases n; rfl
@[simp] theorem isComment_withRole : (n.withRole role).isComment = n.isComment := by cases n; rfl
@[simp] theorem isProper_withRole : (n.withRole role).isProper = n.isProper := by cases n; rfl

@[simp]
theorem properChildren_withRole : (n.withRole role).properChildren = n.properChildren := by
  simp [properChildren]

@[simp]
theorem child?_withRole (r : Role) : (n.withRole role).child? r = n.child? r := by simp [child?]

@[simp]
theorem inner?_withRole : (n.withRole role).inner? = n.inner? := by simp [inner?]

@[simp]
theorem bareShape_withRole : (n.withRole role).bareShape = n.bareShape := by simp [bareShape]

@[simp]
theorem withRole_withRole : (n.withRole role').withRole role = n.withRole role := by cases n; rfl

theorem withRole_of_role (h : n.role = role) : n.withRole role = n := by
  cases n
  subst h
  rfl

end WithRole

/-! ## Parentheses and bare nodes -/

theorem mem_children_of_inner? (h : n.inner? = some c) : c ∈ n.children ∧ c.isProper = true := by
  unfold inner? at h
  split at h
  · exact List.mem_filter.mp (List.mem_of_head? h)
  · cases h

theorem isComment_of_inner? (h : n.inner? = some c) : c.isComment = false := by
  have hproper := (mem_children_of_inner? h).2
  rw [isProper, Bool.and_eq_true, Bool.not_eq_true'] at hproper
  exact hproper.2

theorem kind_of_inner? (h : n.inner? = some c) : n.kind = .parenthesized := by
  unfold inner? at h
  split at h
  · assumption
  · cases h

theorem inner?_of_kind (h : n.kind ≠ .parenthesized) : n.inner? = none := if_neg h

/-- What holds of parentheses as soon as it holds of the node inside, and of a bare node as soon as
it holds of its children, holds of every node. -/
theorem inner_induction {P : Node → Prop}
    (bare : ∀ n, n.inner? = none → (∀ c ∈ n.children, P c) → P n)
    (wrapped : ∀ n c, n.inner? = some c → P c → P n) : ∀ n, P n
  | .node label children => by
    have below : ∀ c ∈ children, P c := fun c _ => inner_induction bare wrapped c
    cases h : (node label children).inner? with
    | none => exact bare _ h below
    | some c => exact wrapped _ c h (below c (mem_children_of_inner? h).1)

theorem unwrapFirst_eq (otherwise : Node) (ns : List Node) :
    unwrapFirst otherwise ns = ((ns.filter isProper).head?.map unwrap).getD otherwise := by
  induction ns with
  | nil => rfl
  | cons n ns ih =>
    rw [unwrapFirst]
    split
    · rename_i hn
      rw [List.filter_cons_of_pos hn]
      rfl
    · rename_i hn
      rw [List.filter_cons_of_neg hn, ih]

theorem strippedFirst_eq (role : Option Role) (otherwise : Node) (ns : List Node) :
    strippedFirst role otherwise ns =
      ((ns.filter isProper).head?.map fun n => n.stripped.withRole role).getD otherwise := by
  induction ns with
  | nil => rfl
  | cons n ns ih =>
    rw [strippedFirst]
    split
    · rename_i hn
      rw [List.filter_cons_of_pos hn]
      rfl
    · rename_i hn
      rw [List.filter_cons_of_neg hn, ih]

theorem strippedAll_eq (ns : List Node) :
    strippedAll ns = (ns.filter fun n => !n.isComment).map stripped := by
  induction ns with
  | nil => rfl
  | cons n ns ih =>
    rw [strippedAll]
    split
    · rename_i hn
      rw [List.filter_cons_of_neg (by simp [hn]), ih]
    · rename_i hn
      rw [List.filter_cons_of_pos (by simp [hn]), List.map_cons, ih]

theorem unwrap_eq (n : Node) : n.unwrap = (n.inner?.map unwrap).getD n := by
  obtain ⟨label, children⟩ := n
  rw [unwrap, unwrapFirst_eq]
  by_cases hk : label.kind = .parenthesized
  · have hinner : (node label children).inner? = (children.filter isProper).head? := if_pos hk
    rw [if_pos hk, hinner]
  · have hinner : (node label children).inner? = none := if_neg hk
    rw [if_neg hk, hinner]
    rfl

theorem stripped_eq (n : Node) :
    n.stripped = (n.inner?.map fun c => c.stripped.withRole n.role).getD
      (.node n.label ((n.children.filter fun c => !c.isComment).map stripped)) := by
  obtain ⟨label, children⟩ := n
  rw [stripped, strippedFirst_eq, strippedAll_eq]
  by_cases hk : label.kind = .parenthesized
  · have hinner : (node label children).inner? = (children.filter isProper).head? := if_pos hk
    rw [if_pos hk, hinner]
    rfl
  · have hinner : (node label children).inner? = none := if_neg hk
    rw [if_neg hk, hinner]
    rfl

theorem unwrap_of_inner? (h : n.inner? = some c) : n.unwrap = c.unwrap := by
  rw [unwrap_eq, h]
  rfl

theorem unwrap_of_bare (h : n.inner? = none) : n.unwrap = n := by
  rw [unwrap_eq, h]
  rfl

theorem stripped_of_inner? (h : n.inner? = some c) : n.stripped = c.stripped.withRole n.role := by
  rw [stripped_eq, h]
  rfl

theorem stripped_of_bare (h : n.inner? = none) :
    n.stripped = .node n.label ((n.children.filter fun c => !c.isComment).map stripped) := by
  rw [stripped_eq, h]
  rfl

/-- There are no parentheses left around the node inside them. -/
@[simp]
theorem inner?_unwrap (n : Node) : n.unwrap.inner? = none := by
  induction n using inner_induction with
  | bare n h => rw [unwrap_of_bare h, h]
  | wrapped n c h ih => rw [unwrap_of_inner? h, ih]

theorem label_stripped (h : n.inner? = none) : n.stripped.label = n.label := by
  rw [stripped_of_bare h]
  rfl

theorem children_stripped (h : n.inner? = none) :
    n.stripped.children = (n.children.filter fun c => !c.isComment).map stripped := by
  rw [stripped_of_bare h]
  rfl

theorem kind_stripped (h : n.inner? = none) : n.stripped.kind = n.kind :=
  congrArg Label.kind (label_stripped h)

theorem text_stripped (h : n.inner? = none) : n.stripped.text = n.text :=
  congrArg Label.text (label_stripped h)

/-- A tree keeps its role. -/
@[simp]
theorem role_stripped (n : Node) : n.stripped.role = n.role := by
  cases h : n.inner? with
  | none => exact congrArg Label.role (label_stripped h)
  | some c => rw [stripped_of_inner? h, role_withRole]

/-- Stripping begins with the parentheses around a node. -/
theorem stripped_eq_unwrap (n : Node) : n.stripped = n.unwrap.stripped.withRole n.role := by
  induction n using inner_induction with
  | bare n h => rw [unwrap_of_bare h, withRole_of_role _ (role_stripped n)]
  | wrapped n c h ih => rw [stripped_of_inner? h, ih, withRole_withRole, unwrap_of_inner? h]

/-! ## What a bare node keeps -/

theorem isComment_stripped (hn : n.isComment = false) : n.stripped.isComment = false := by
  induction n using inner_induction with
  | bare n h =>
    rw [isComment, kind_stripped h]
    exact hn
  | wrapped n c h ih =>
    rw [stripped_of_inner? h, isComment_withRole, ih (isComment_of_inner? h)]

/-- A tree that is no comment stays proper if it is, and else does not become it. -/
theorem isProper_stripped (hg : n.Grammatical) (hn : n.isComment = false) :
    n.stripped.isProper = n.isProper := by
  induction n using inner_induction with
  | bare n h =>
    rw [isProper, isComment_stripped hn, named, label_stripped h, isProper, hn]
    rfl
  | wrapped n c h ih =>
    obtain ⟨hmem, hc⟩ := mem_children_of_inner? h
    have hnamed := (hg.parenthesized n (mem_preorder_self n) (kind_of_inner? h)).1
    have hinner := ih (hg.of_mem_children hmem) (isComment_of_inner? h)
    rw [stripped_of_inner? h, isProper_withRole, hinner, hc, isProper, hnamed, hn]
    rfl

/-- A bare node keeps its proper children, each stripped. -/
theorem properChildren_stripped (hg : n.Grammatical) (h : n.inner? = none) :
    n.stripped.properChildren = n.properChildren.map stripped := by
  rw [properChildren, children_stripped h, List.filter_map, List.filter_filter, properChildren]
  refine congrArg (List.map stripped) (List.filter_congr fun c hc => ?_)
  cases hcomment : c.isComment with
  | true => simp [isProper, hcomment]
  | false => simp [isProper_stripped (hg.of_mem_children hc) hcomment]

/-- A bare node keeps its children in their roles, each stripped. -/
theorem child?_stripped (hg : n.Grammatical) (h : n.inner? = none) (r : Role) :
    n.stripped.child? r = (n.child? r).map stripped := by
  rw [child?, children_stripped h, List.find?_map, List.find?_filter, child?]
  refine congrArg (Option.map stripped) (List.find?_congr fun c hc => ?_)
  rw [Function.comp_apply, role_stripped]
  cases hcomment : c.isComment with
  | false => simp
  | true =>
    -- a comment is not the child in any role
    have hrole := (hg.of_mem_children hc).comment c (mem_preorder_self c) hcomment
    simp [hrole]

/-- A bare node stays bare. -/
theorem inner?_stripped (hg : n.Grammatical) (h : n.inner? = none) : n.stripped.inner? = none := by
  rw [inner?, kind_stripped h, properChildren_stripped hg h]
  unfold inner? at h
  split
  · rename_i hk
    rw [if_pos hk] at h
    rw [List.head?_map, h]
    rfl
  · rfl

/-- A child in the role of an operator or of a list of arguments is bare. -/
theorem Grammatical.inner?_of_child? (hg : n.Grammatical) {r : Role} (hc : n.child? r = some c)
    (hr : r = .operator ∨ r = .arguments) : c.inner? = none := by
  refine inner?_of_kind fun hk => ?_
  have hrole : c.role = some r :=
    of_decide_eq_true (List.find?_some (p := fun m : Node => decide (m.role = some r)) hc)
  obtain ⟨-, hoperator, harguments⟩ := (hg.of_child? hc).parenthesized c (mem_preorder_self c) hk
  rcases hr with rfl | rfl
  · exact hoperator hrole
  · exact harguments hrole

/-- What is left of a tree has no comments and no parentheses with a proper node inside. -/
theorem isStripped_stripped (hg : n.Grammatical) (hn : n.isComment = false) :
    n.stripped.IsStripped := by
  induction n using inner_induction with
  | bare n h below =>
    intro m hm
    rw [preorder_eq, List.mem_cons, children_stripped h] at hm
    rcases hm with rfl | hm
    · exact ⟨isComment_stripped hn, inner?_stripped hg h⟩
    · obtain ⟨d, hd, hm⟩ := List.mem_flatMap.mp hm
      obtain ⟨c, hc, rfl⟩ := List.mem_map.mp hd
      obtain ⟨hc, hcomment⟩ := List.mem_filter.mp hc
      exact below c hc (hg.of_mem_children hc) (by simpa using hcomment) m hm
  | wrapped n c h ih =>
    have hmem := (mem_children_of_inner? h).1
    have hinner := ih (hg.of_mem_children hmem) (isComment_of_inner? h)
    intro m hm
    rw [stripped_of_inner? h, preorder_eq, List.mem_cons, children_withRole] at hm
    rcases hm with rfl | hm
    · simpa using hinner c.stripped (mem_preorder_self _)
    · exact hinner m (by rw [preorder_eq]; exact List.mem_cons_of_mem _ hm)

/-! ## Expressions -/

theorem Grammatical.unwrap (hg : n.Grammatical) : n.unwrap.Grammatical :=
  hg.of_mem (unwrap_mem_preorder (mem_preorder_self n))

/-- The node inside the parentheses is found before and after. -/
theorem unwrap_stripped (hg : n.Grammatical) :
    n.stripped.unwrap = n.unwrap.stripped.withRole n.role := by
  have hbare : (n.unwrap.stripped.withRole n.role).inner? = none := by
    rw [inner?_withRole, inner?_stripped hg.unwrap (inner?_unwrap n)]
  rw [stripped_eq_unwrap n, unwrap_of_bare hbare]

theorem bareShape_stripped (hg : n.Grammatical) (h : n.inner? = none) :
    n.stripped.bareShape = n.bareShape := by
  have hvoid : (n.stripped.child? .operator).any (·.kind = .void) =
      (n.child? .operator).any (·.kind = .void) := by
    rw [child?_stripped hg h]
    cases hc : n.child? .operator with
    | none => rfl
    | some c =>
      have hbare := hg.inner?_of_child? hc (.inl rfl)
      simp only [Option.map_some, Option.any_some, kind_stripped hbare]
  rw [bareShape, bareShape, kind_stripped h, hvoid]

/-- The shape of an expression does not depend on parentheses and comments. -/
theorem shape_stripped (hg : n.Grammatical) : n.stripped.shape = n.shape := by
  rw [shape, unwrap_stripped hg, bareShape_withRole, bareShape_stripped hg.unwrap (inner?_unwrap n),
    shape]

theorem text_unwrap_stripped (hg : n.Grammatical) : n.stripped.unwrap.text = n.unwrap.text := by
  rw [unwrap_stripped hg, text_withRole, text_stripped (inner?_unwrap n)]

theorem identifier?_stripped (hg : n.Grammatical) : n.stripped.identifier? = n.identifier? := by
  rw [identifier?, identifier?, shape_stripped hg, text_unwrap_stripped hg]

/-- The elements of an array literal are the same in the same order, each stripped. -/
theorem elements_stripped (hg : n.Grammatical) :
    n.stripped.elements = n.elements.map stripped := by
  rw [elements, elements, unwrap_stripped hg, kind_withRole, properChildren_withRole,
    kind_stripped (inner?_unwrap n), properChildren_stripped hg.unwrap (inner?_unwrap n)]
  split <;> rfl

/-- A call without parentheses around it calls the same name. -/
theorem callee?_stripped (hg : n.Grammatical) (h : n.inner? = none) :
    n.stripped.callee? = n.callee? := by
  rw [callee?, callee?, child?_stripped hg h]
  cases hc : n.child? .function with
  | none => rfl
  | some c =>
    exact identifier?_stripped (hg.of_child? hc)

/-- A call without parentheses around it has the same arguments in the same order, each stripped. -/
theorem arguments_stripped (hg : n.Grammatical) (h : n.inner? = none) :
    n.stripped.arguments = n.arguments.map stripped := by
  rw [arguments, arguments, child?_stripped hg h]
  cases hc : n.child? .arguments with
  | none => rfl
  | some c =>
    exact properChildren_stripped (hg.of_child? hc) (hg.inner?_of_child? hc (.inr rfl))

end Node

end CommentTypes
