import CommentTypes.Proofs.Check.Visit
import CommentTypes.Proofs.Tree.Below

/-!
# Walks that cannot be told apart

What a walk asks of its context about the nodes of a tree: whether they are cut off, in which column
they start, and the signatures of the functions that they call (`Context.Alike`); and at each
declaration its annotation. Where two contexts give the same answers, each node is taken for the
same (`Alike.visit_eq`) and the two walks stay in step (`Alike.walk_mirrors`): they know the same,
count the same and report the same, each in its own file.
-/

namespace CommentTypes

/-- The names of the functions that are called in a tree. -/
def Node.calledNames (root : Node) : List String :=
  (root.preorder.filter (·.kind = .call)).filterMap Node.callee?

theorem Node.kind_of_shape_call {n : Node} (h : n.shape = .call) : n.unwrap.kind = .call := by
  cases hk : n.unwrap.kind with
  | call => rfl
  | unary =>
    rw [shape, bareShape, hk] at h
    dsimp only at h
    split at h <;> cases h
  | _ =>
    rw [shape, bareShape, hk] at h
    cases h

/-- The mismatch as one of another file. -/
def Diagnostic.inFile (file : String) (d : Diagnostic) : Diagnostic :=
  { d with location := { d.location with file } }

namespace Check

/-- The value that a visit looks at. -/
def Visit.value? : Visit → Option Node
  | pass | call _ _ => none
  | annotated _ value _ | unannotated _ value => some value
  | assignment _ _ _ value => value

/-- A visit looks at a node of the tree. -/
theorem Visit.Taken.value_mem_preorder {ctx : Context} {known : Tracker} {c : Cursor} {v : Visit}
    (ht : v.Taken ctx known c) {root n : Node} (hc : c.node ∈ root.preorder)
    (hn : v.value? = some n) : n ∈ root.preorder := by
  cases v with
  | pass | call => cases hn
  | annotated name value a =>
    cases hn
    exact Node.mem_preorder_of_child? hc ht.2.2.1
  | unannotated name value =>
    cases hn
    exact Node.mem_preorder_of_child? hc ht.2.2.1
  | assignment name declared complex value =>
    obtain ⟨-, -, -, -, hvalue⟩ := ht
    exact Node.mem_preorder_of_child? hc (hvalue.trans hn)

/-- Two contexts give the same answers about the nodes of a tree. -/
structure Context.Alike (ctx ctx' : Context) (root : Node) : Prop where
  infer : ctx'.infer = ctx.infer
  cutsOff : ∀ n ∈ root.preorder, ctx'.directives.cutsOff n.line = ctx.directives.cutsOff n.line
  column : ∀ n ∈ root.preorder, ctx'.source.column n = ctx.source.column n
  signature : ∀ name ∈ root.calledNames, ctx'.signatures.find? name = ctx.signatures.find? name

/-- Two states know and count the same and report the same, the second in a file of its own. -/
structure State.Mirrors (file : String) (s t : State) : Prop where
  bindings : t.bindings = s.bindings
  diagnostics : t.diagnostics = s.diagnostics.map (·.inFile file)
  checks : t.checks = s.checks

theorem Context.Alike.refl (ctx : Context) (root : Node) : ctx.Alike ctx root :=
  ⟨rfl, fun _ _ => rfl, fun _ _ => rfl, fun _ _ => rfl⟩

namespace Context.Alike

variable {ctx ctx' : Context} {root : Node} (h : ctx.Alike ctx' root)
include h

/-- A call is a call of the same function. -/
theorem called_eq {n : Node} (hn : n ∈ root.preorder) (hk : n.kind = .call) :
    n.callee?.bind ctx'.signatures.find? = n.callee?.bind ctx.signatures.find? := by
  cases hname : n.callee? with
  | none => rfl
  | some name =>
    refine h.signature name (List.mem_filterMap.mpr ⟨n, List.mem_filter.mpr ⟨hn, ?_⟩, hname⟩)
    exact decide_eq_true hk

/-- An expression has the same type. -/
theorem typeOf_eq (known : Tracker) {value : Option Node} (hv : ∀ n ∈ value, n ∈ root.preorder)
    (declared : Option TypeName) :
    ctx'.typeOf known value declared = ctx.typeOf known value declared := by
  cases value with
  | none => rfl
  | some n =>
    simp only [typeOf, inferType, Node.inferredType]
    split
    · rename_i hs
      have hcalled := h.called_eq (Node.unwrap_mem_preorder (hv n rfl)) (Node.kind_of_shape_call hs)
      have hreturns : ∀ r : Registry, n.unwrap.callee?.bind r.returns? =
          (n.unwrap.callee?.bind r.find?).bind Signature.returns := by
        intro r
        rw [Option.bind_assoc]
        rfl
      rw [hreturns, hreturns, hcalled]
    all_goals rfl

theorem accepts_eq (known : Tracker) (declared : TypeName) (complex : Bool) {value : Option Node}
    (hv : ∀ n ∈ value, n ∈ root.preorder) :
    ctx'.accepts known declared complex value = ctx.accepts known declared complex value := by
  rw [accepts, accepts, h.typeOf_eq known hv]

/-- A mismatch is the same in another file. -/
theorem mismatch_eq (site : Site) {n : Node} (hn : n ∈ root.preorder) (subject : String)
    (expected found : TypeName) (value : Option Node) :
    mismatch ctx' site n subject expected found value =
      (mismatch ctx site n subject expected found value).inFile ctx'.source.path := by
  simp only [mismatch, locationOf, Diagnostic.inFile, h.column n hn]

theorem compared_eq (known : Tracker) (site : Site) {n : Node} (hn : n ∈ root.preorder)
    (name : String) (declared : TypeName) (complex : Bool) {value : Option Node}
    (hv : ∀ n ∈ value, n ∈ root.preorder) :
    compared ctx' known site n name declared complex value =
      (compared ctx known site n name declared complex value).map
        (·.inFile ctx'.source.path) := by
  simp only [compared, h.accepts_eq known declared complex hv, h.typeOf_eq known hv]
  split
  · rfl
  · rw [h.mismatch_eq site hn, List.map_singleton]

theorem argumentReport?_eq (known : Tracker) {p : (String × TypeName) × Node}
    (hp : p.2 ∈ root.preorder) :
    argumentReport? ctx' known p =
      (argumentReport? ctx known p).map (·.inFile ctx'.source.path) := by
  have hv : ∀ n ∈ some p.2, n ∈ root.preorder := fun n hn => Option.some.inj hn ▸ hp
  simp only [argumentReport?, h.typeOf_eq known hv]
  split
  · rfl
  · rw [h.mismatch_eq .argument hp, Option.map_some]

theorem argumentReports_eq (known : Tracker) {ps : List ((String × TypeName) × Node)}
    (hps : ∀ p ∈ ps, p.2 ∈ root.preorder) :
    ps.filterMap (argumentReport? ctx' known) =
      (ps.filterMap (argumentReport? ctx known)).map (·.inFile ctx'.source.path) := by
  induction ps with
  | nil => rfl
  | cons p ps ih =>
    obtain ⟨hp, hps⟩ := List.forall_mem_cons.mp hps
    rw [List.filterMap_cons, List.filterMap_cons, h.argumentReport?_eq known hp, ih hps]
    cases argumentReport? ctx known p <;> rfl

/-- A node is taken for the same. -/
theorem visit_eq (known : Tracker) {c c' : Cursor} (hc : c.node ∈ root.preorder)
    (hnode : c'.node = c.node) (ha : ctx'.source.annotation? c' = ctx.source.annotation? c) :
    visit ctx' known c' = visit ctx known c := by
  simp only [visit, hnode, h.cutsOff _ hc]
  split
  · rfl
  · split
    · simp only [Visit.ofDeclarator, hnode, ha]
    · rfl
    · rfl
    · rename_i hk
      simp only [Visit.ofCall, h.called_eq hc hk]
    · rfl

/-- A visit leads to the same knowledge. -/
theorem bindings_eq {known : Tracker} {c : Cursor} (hc : c.node ∈ root.preorder) {v : Visit}
    (ht : v.Taken ctx known c) : v.bindings ctx' known = v.bindings ctx known := by
  cases v with
  | pass => rfl
  | call f arguments => rfl
  | annotated name value a =>
    have hv : ∀ n ∈ some value, n ∈ root.preorder := fun n => ht.value_mem_preorder hc
    rw [Visit.bindings, Visit.bindings, h.typeOf_eq known hv]
  | unannotated name value =>
    have hv : ∀ n ∈ some value, n ∈ root.preorder := fun n => ht.value_mem_preorder hc
    simp only [Visit.bindings, h.typeOf_eq known hv, h.infer]
  | assignment name declared complex value =>
    have hv : ∀ n ∈ value, n ∈ root.preorder := fun n => ht.value_mem_preorder hc
    simp only [Visit.bindings, h.accepts_eq known declared complex hv, h.typeOf_eq known hv]

/-- A visit reports the same, in its own file. -/
theorem reports_eq {known : Tracker} {c : Cursor} (hc : c.node ∈ root.preorder) {v : Visit}
    (ht : v.Taken ctx known c) :
    v.reports ctx' known c.node =
      (v.reports ctx known c.node).map (·.inFile ctx'.source.path) := by
  cases v with
  | pass => rfl
  | unannotated name value => rfl
  | annotated name value a =>
    have hv : ∀ n ∈ some value, n ∈ root.preorder := fun n => ht.value_mem_preorder hc
    exact h.compared_eq known .declaration hc name a.declared a.complex hv
  | assignment name declared complex value =>
    have hv : ∀ n ∈ value, n ∈ root.preorder := fun n => ht.value_mem_preorder hc
    exact h.compared_eq known .assignment hc name declared complex hv
  | call f arguments =>
    obtain ⟨-, -, -, rfl⟩ := ht
    exact h.argumentReports_eq known fun p hp =>
      Node.mem_preorder_of_mem_arguments hc (List.of_mem_zip hp).2

/-- One step further, the two walks are still in step. -/
theorem step_mirrors {c c' : Cursor} (hc : c.node ∈ root.preorder) (hnode : c'.node = c.node)
    (ha : ctx'.source.annotation? c' = ctx.source.annotation? c) {s t : State}
    (hst : s.Mirrors ctx'.source.path t) :
    (step ctx s c).Mirrors ctx'.source.path (step ctx' t c') := by
  obtain ⟨hb, hd, hk⟩ := step_effect ctx s c
  obtain ⟨hb', hd', hk'⟩ := step_effect ctx' t c'
  rw [hst.bindings, h.visit_eq s.bindings hc hnode ha] at hb' hd' hk'
  have ht := visit_taken ctx s.bindings c
  constructor
  · rw [hb, hb', h.bindings_eq hc ht]
  · rw [hd, hd', hnode, h.reports_eq hc ht, hst.diagnostics, List.map_append]
  · rw [hk, hk', hst.checks]

/-- Two walks over nodes that stand for each other stay in step. -/
theorem walk_mirrors {f : Cursor → Cursor} {cs : List Cursor}
    (hcs : ∀ c ∈ cs, c.node ∈ root.preorder) (hnode : ∀ c ∈ cs, (f c).node = c.node)
    (ha : ∀ c ∈ cs, ctx'.source.annotation? (f c) = ctx.source.annotation? c) :
    (walk ctx {} cs).Mirrors ctx'.source.path (walk ctx' {} (cs.map f)) :=
  walk_in_step (R := State.Mirrors ctx'.source.path)
    (fun c hc _ _ => h.step_mirrors (hcs c hc) (hnode c hc) (ha c hc)) ⟨rfl, rfl, rfl⟩

end Context.Alike

end Check

end CommentTypes
