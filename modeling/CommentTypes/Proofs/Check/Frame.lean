import CommentTypes.Proofs.Check.Visit
import CommentTypes.Proofs.Tree.Order

/-!
# What a node leaves alone

A node changes at most what is known of one variable, the one that it binds or assigns to
(`Node.written?`, `step_apartFrom`). A node that is no declarator changes at most the type inferred
for it, and only where it reports nothing (`step_of_not_declarator`).

Both add up over the nodes of a walk: the declared type of a variable stays the same until the
variable is declared again (`walk_declaration`), and all that is known of it stays the same until it
is declared or assigned to (`walk_find?`). So a copy of a variable keeps the type that the variable
had when it was copied (`step_of_copy`).
-/

namespace CommentTypes

/-- The variable that a declarator binds, or that an assignment assigns to. -/
def Node.written? (n : Node) : Option String :=
  match n.kind with
  | .variableDeclarator => n.boundName?
  | .assignment | .compoundAssignment => n.targetName?
  | _ => none

theorem Node.written?_of_kind {n : Node} (hd : n.kind ≠ .variableDeclarator)
    (ha : n.kind ≠ .assignment) (hc : n.kind ≠ .compoundAssignment) : n.written? = none := by
  unfold written?
  split <;> simp_all

namespace Check

/-! ## One node -/

/-- The variable of which a visit may come to know something else. -/
def Visit.written? : Visit → Option String
  | pass | call _ _ => none
  | annotated name _ _ | unannotated name _ | assignment name _ _ _ => some name

/-- A visit leaves all variables alone but one. -/
theorem Visit.apartFrom_bindings (ctx : Context) (known : Tracker) (v : Visit) :
    (v.bindings ctx known).apartFrom v.written? = known.apartFrom v.written? := by
  cases v with
  | pass | call => rfl
  | annotated name value a => exact NameMap.apartFrom_insert ..
  | unannotated name value =>
    simp only [bindings]
    split
    · exact NameMap.apartFrom_insert ..
    · rfl
  | assignment name declared complex value =>
    simp only [bindings]
    split
    · exact NameMap.apartFrom_modify ..
    · rfl

/-- It is the variable that the node binds or assigns to. -/
theorem Visit.Taken.written? {ctx : Context} {known : Tracker} {c : Cursor} {v : Visit}
    (h : v.Taken ctx known c) : v.written? = none ∨ v.written? = c.node.written? := by
  cases v with
  | pass | call => exact .inl rfl
  | annotated | unannotated =>
    obtain ⟨hk, hname, -⟩ := h
    right
    rw [Node.written?, hk]
    exact hname.symm
  | assignment name declared complex value =>
    obtain ⟨inferred, hk | hk, hname, -⟩ := h
    all_goals
      right
      rw [Node.written?, hk]
      exact hname.symm

section

variable (ctx : Context) (s : State) {c : Cursor}

/-- A node changes at most what is known of the variable that it binds or assigns to. -/
theorem step_apartFrom (c : Cursor) :
    (step ctx s c).bindings.apartFrom c.node.written? = s.bindings.apartFrom c.node.written? := by
  have hframe := Visit.apartFrom_bindings ctx s.bindings (visit ctx s.bindings c)
  rw [(step_effect ctx s c).bindings]
  rcases (visit_taken ctx s.bindings c).written? with hnone | hsame
  · rw [hnone] at hframe
    rw [NameMap.eq_of_apartFrom_none hframe]
  · rwa [hsame] at hframe

theorem step_find? {name : String} (h : c.node.written? ≠ some name) :
    (step ctx s c).bindings.find? name = s.bindings.find? name :=
  NameMap.find?_eq_of_apartFrom (step_apartFrom ctx s c) h

/-- A node that is no declarator changes nothing that is known, or it changes an inferred type and
reports nothing. -/
theorem step_of_not_declarator (h : c.node.kind ≠ .variableDeclarator) :
    (step ctx s c).bindings = s.bindings ∨
      (step ctx s c).diagnostics = s.diagnostics ∧
        ∃ name found, (step ctx s c).bindings = s.bindings.refresh name found := by
  have he := step_effect ctx s c
  have ht := visit_taken ctx s.bindings c
  rw [he.bindings, he.diagnostics]
  cases hv : visit ctx s.bindings c with
  | pass | call => exact .inl rfl
  | annotated | unannotated =>
    rw [hv] at ht
    exact absurd ht.1 h
  | assignment name declared complex value =>
    simp only [Visit.bindings, Visit.reports, compared]
    split
    · exact .inr ⟨List.append_nil _, _, _, rfl⟩
    · exact .inl rfl

/-- Only declarators change what is declared. -/
theorem step_declarations (h : c.node.kind ≠ .variableDeclarator) :
    (step ctx s c).bindings.declarations = s.bindings.declarations := by
  rcases step_of_not_declarator ctx s h with hsame | ⟨-, name, found, hrefresh⟩
  · rw [hsame]
  · rw [hrefresh, Tracker.declarations_refresh]

/-! ## Stretches of a walk -/

/-- Without a declaration in between, the declared type of a variable stays the same. -/
theorem walk_declaration {name : String} {cs : List Cursor}
    (h : ∀ c ∈ cs, c.node.kind = .variableDeclarator → c.node.boundName? ≠ some name) :
    ((walk ctx s cs).bindings.find? name).map Binding.declaration =
      (s.bindings.find? name).map Binding.declaration := by
  refine walk_induction_of_mem
    (P := fun t => (t.bindings.find? name).map Binding.declaration =
      (s.bindings.find? name).map Binding.declaration) (fun c hc t ht => ?_) rfl
  rw [← ht]
  by_cases hk : c.node.kind = .variableDeclarator
  · have hother : c.node.written? ≠ some name := by
      rw [Node.written?, hk]
      exact h c hc hk
    rw [step_find? ctx t hother]
  · rw [← Tracker.lookup_declarations, step_declarations ctx t hk, Tracker.lookup_declarations]

/-- A variable to which nothing is bound or assigned stays as it is. -/
theorem walk_find? {name : String} {cs : List Cursor}
    (h : ∀ c ∈ cs, c.node.written? ≠ some name) :
    (walk ctx s cs).bindings.find? name = s.bindings.find? name := by
  refine walk_induction_of_mem (P := fun t => t.bindings.find? name = s.bindings.find? name)
    (fun c hc t ht => ?_) rfl
  rw [step_find? ctx t (h c hc), ht]

end

/-! ## Copies -/

/-- The node is a declarator that binds a name to a value, and is not cut off. -/
structure Context.Declares (ctx : Context) (n : Node) (name : String) (value : Node) : Prop where
  kind : n.kind = .variableDeclarator
  name : n.boundName? = some name
  value : n.child? .value = some value
  allowed : ctx.directives.cutsOff n.line = false

variable {ctx : Context} {known : Tracker} {s : State} {c : Cursor} {name other : String}
  {value : Node}

theorem visit_of_declares (h : ctx.Declares c.node name value) :
    visit ctx known c =
      (ctx.source.annotation? c).elim (.unannotated name value) (.annotated name value) := by
  simp only [visit, h.allowed, h.kind, Visit.ofDeclarator, h.name, h.value, Bool.false_eq_true,
    if_false]
  cases ctx.source.annotation? c <;> rfl

/-- A name has the type inferred for it, whatever is declared. -/
theorem typeOf_of_identifier (h : value.identifier? = some other) {b : Binding}
    (hb : known.find? other = some b) (declared : Option TypeName) :
    ctx.typeOf known (some value) declared = b.inferred := by
  obtain ⟨hshape, rfl⟩ : value.shape = .identifier ∧ value.unwrap.text = other := by
    simpa [Node.identifier?] using h
  simp only [Context.typeOf, inferType, Node.inferredType, hshape, Tracker.resolve?, hb,
    Option.map_some, Option.getD_some]

/-- A copy of a variable gets the type inferred for the variable, with or without an annotation. -/
theorem step_of_copy (hc : ctx.Declares c.node name value) (hv : value.identifier? = some other)
    {b : Binding} (hb : s.bindings.find? other = some b) :
    (step ctx s c).bindings.resolve? name = some b.inferred := by
  have htracked : value.identifier?.any s.bindings.contains = true := by
    rw [hv, Option.any_some, NameMap.contains, hb, Option.isSome_some]
  rw [(step_effect ctx s c).bindings, visit_of_declares hc]
  cases ctx.source.annotation? c with
  | none =>
    simp [Visit.bindings, htracked, typeOf_of_identifier hv hb, Tracker.declare, Tracker.resolve?,
      Tracker.binding]
  | some a =>
    simp [Visit.bindings, typeOf_of_identifier hv hb, Tracker.declare, Tracker.resolve?,
      Tracker.binding]

/-- Declared types change by declarations only. A node that is neither a declarator nor an
assignment changes nothing that is known. An assignment leaves the names, their order and their
declared types as they are and all of its target but the inferred type, and changes nothing if it is
reported. A declarator changes at most what is known of the name that it binds. So the declared type
of a variable, or that it has none, stays the same over any stretch without a declarator of it, and
a copy of a variable keeps the type of the variable as long as nothing is assigned to the copy. -/
theorem declared_types_kept (ctx : Context) (s : State) :
    (∀ c : Cursor, c.node.kind ≠ .variableDeclarator → c.node.kind ≠ .assignment →
      c.node.kind ≠ .compoundAssignment → (step ctx s c).bindings = s.bindings) ∧
    (∀ c : Cursor, c.node.kind = .assignment ∨ c.node.kind = .compoundAssignment →
      (step ctx s c).bindings.declarations = s.bindings.declarations ∧
      (step ctx s c).bindings.apartFrom c.node.targetName? =
        s.bindings.apartFrom c.node.targetName? ∧
      (∀ name, c.node.targetName? ≠ some name →
        (step ctx s c).bindings.find? name = s.bindings.find? name) ∧
      ((step ctx s c).diagnostics ≠ s.diagnostics → (step ctx s c).bindings = s.bindings)) ∧
    (∀ c : Cursor, c.node.kind = .variableDeclarator →
      (step ctx s c).bindings.apartFrom c.node.boundName? =
        s.bindings.apartFrom c.node.boundName? ∧
      ∀ name, c.node.boundName? ≠ some name →
        (step ctx s c).bindings.find? name = s.bindings.find? name) ∧
    (∀ (name : String) (cs : List Cursor),
      (∀ c ∈ cs, c.node.kind = .variableDeclarator → c.node.boundName? ≠ some name) →
      ((walk ctx s cs).bindings.find? name).map Binding.declaration =
        (s.bindings.find? name).map Binding.declaration) ∧
    ∀ (c : Cursor) (name other : String) (value : Node) (b : Binding),
      ctx.Declares c.node name value → value.identifier? = some other →
      s.bindings.find? other = some b →
      ∀ cs : List Cursor, (∀ d ∈ cs, d.node.written? ≠ some name) →
        (walk ctx s (c :: cs)).bindings.resolve? name = some b.inferred := by
  refine ⟨fun c hd ha hca => ?_, fun c hk => ?_, fun c hk => ?_, fun _ _ => walk_declaration ctx s,
    fun c name other value b hc hv hb cs hcs => ?_⟩
  · have hframe := step_apartFrom ctx s c
    rw [Node.written?_of_kind hd ha hca] at hframe
    exact NameMap.eq_of_apartFrom_none hframe
  · have hd : c.node.kind ≠ .variableDeclarator := by rcases hk with hk | hk <;> simp [hk]
    have hwritten : c.node.written? = c.node.targetName? := by
      rcases hk with hk | hk <;> simp only [Node.written?, hk]
    rw [← hwritten]
    refine ⟨step_declarations ctx s hd, step_apartFrom ctx s c, fun _ => step_find? ctx s,
      fun hreported => ?_⟩
    exact (step_of_not_declarator ctx s hd).resolve_right fun h => hreported h.1
  · have hwritten : c.node.written? = c.node.boundName? := by simp only [Node.written?, hk]
    rw [← hwritten]
    exact ⟨step_apartFrom ctx s c, fun _ => step_find? ctx s⟩
  · rw [walk_cons, Tracker.resolve?, walk_find? ctx _ hcs]
    exact step_of_copy hc hv hb

/-- A variable of a union, a copy of it, an assignment to it that is accepted and one that is
not. -/
def copiedVariable : Source :=
  .ofOutline "a.js"
    "let a /*: string|number */ = 1;\nlet b = a;\na = 'x';\na = true;"
    [.rule "program" "" 0 61 4, .rule "lexical_declaration" "" 0 31 1,
      .rule "variable_declarator" "" 4 30 3, .rule "identifier" "name" 4 5 0,
      .rule "comment" "" 6 26 0, .rule "number" "value" 29 30 0,
      .rule "lexical_declaration" "" 32 42 1, .rule "variable_declarator" "" 36 41 2,
      .rule "identifier" "name" 36 37 0, .rule "identifier" "value" 40 41 0,
      .rule "expression_statement" "" 43 51 1, .rule "assignment_expression" "" 43 50 2,
      .rule "identifier" "left" 43 44 0, .rule "string" "right" 47 50 0,
      .rule "expression_statement" "" 52 61 1, .rule "assignment_expression" "" 52 60 2,
      .rule "identifier" "left" 52 53 0, .rule "true" "right" 56 60 0]

namespace copiedVariable

/-- What the walk works with. -/
def context : Context := fileContext false copiedVariable

/-- What is known when the walk reaches a node. -/
def before (i : Nat) : State := walk context {} (copiedVariable.root.cursors.take i)

/-- The declarator of `b`. -/
def copy : Cursor := copiedVariable.root.cursorAt 7

/-- The statement after the declaration of `b`. -/
def statement : Cursor := copiedVariable.root.cursorAt 10

/-- The assignment of a string to `a`. -/
def accepted : Cursor := copiedVariable.root.cursorAt 11

/-- The assignment of a boolean to `a`. -/
def refused : Cursor := copiedVariable.root.cursorAt 15

theorem copy_declares : ∃ value, context.Declares copy.node "b" value ∧
    value.identifier? = some "a" := by
  obtain ⟨value, hvalue, hname⟩ := Node.exists_child_of_any
    (by decide +kernel : ((copy.node.child? .value).any
      fun v => decide (v.identifier? = some "a")) = true)
  exact ⟨value, ⟨by decide +kernel, by decide +kernel, hvalue, by decide +kernel⟩, hname⟩

end copiedVariable

open copiedVariable in
theorem copiedVariable_types_kept :
    (step context (before 10) statement).bindings = (before 10).bindings ∧
    (step context (before 11) accepted).bindings.declarations = (before 11).bindings.declarations ∧
    (step context (before 11) accepted).bindings.find? "b" = (before 11).bindings.find? "b" ∧
    (step context (before 11) accepted).bindings.find? "a" ≠ (before 11).bindings.find? "a" ∧
    ((step context (before 15) refused).diagnostics ≠ (before 15).diagnostics ∧
      (step context (before 15) refused).bindings = (before 15).bindings) ∧
    (step context (before 7) copy).bindings.find? "a" = (before 7).bindings.find? "a" ∧
    ((walk context (before 8) [accepted, refused]).bindings.find? "a").map Binding.declaration =
      ((before 8).bindings.find? "a").map Binding.declaration ∧
    (walk context (before 7) (copy :: [accepted, refused])).bindings.resolve? "b" =
      some "number" ∧
    (walk context (before 7) (copy :: [accepted, refused])).bindings.resolve? "a" =
      some "string" := by
  have hassignment : accepted.node.kind = .assignment := by decide +kernel
  have hrefused : (step context (before 15) refused).diagnostics ≠ (before 15).diagnostics := by
    decide +kernel
  have hstatement := (declared_types_kept context (before 10)).1 statement (by decide +kernel)
    (by decide +kernel) (by decide +kernel)
  obtain ⟨hkept, -, hothers, -⟩ :=
    (declared_types_kept context (before 11)).2.1 accepted (.inl hassignment)
  obtain ⟨-, -, -, hsame⟩ :=
    (declared_types_kept context (before 15)).2.1 refused (.inl (by decide +kernel))
  obtain ⟨-, -, hdeclarator, -, hcopy⟩ := declared_types_kept context (before 7)
  obtain ⟨-, -, -, hstretch, -⟩ := declared_types_kept context (before 8)
  obtain ⟨value, hdeclares, hvalue⟩ := copy_declares
  refine ⟨hstatement, hkept, hothers "b" (by decide +kernel), by decide +kernel,
    ⟨hrefused, hsame hrefused⟩, (hdeclarator copy (by decide +kernel)).2 "a" (by decide +kernel),
    hstretch "a" _ ?_, ?_, by decide +kernel⟩
  · decide +kernel
  · exact hcopy copy "b" "a" value ⟨some "string|number", "number", true⟩ hdeclares hvalue
      (by decide +kernel) _ (by decide +kernel)

end Check

end CommentTypes
