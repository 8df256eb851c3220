import CommentTypes.Proofs.Check.Frame
import CommentTypes.Proofs.Text.LowerCase
import CommentTypes.Proofs.Tree.Order
import CommentTypes.Proofs.Typing.Verdict

/-!
# Results of functions in variables of the same type

A call has the type that the called function is said to return (`typeOf_of_returns`). Where the
variable that takes the result has this very type, the two are compared as any others, and the
comparison goes wrong for types that do not satisfy themselves (`isMatch_self_iff`): unions, unless
they end like an array type, and the complex types that are not understood.

Variables keep the type with which they are declared until they are declared again
(`walk_keeps_declared`), and what is known of their complexity fits it (`walk_flagged`). So the same
holds of assignments, and of those to variables whose type was inferred from such a call.
-/

namespace CommentTypes.Check

/-- The node is a call of a function that is said to return a type. -/
def Context.Returns (ctx : Context) (n : Node) (d : TypeName) : Prop :=
  n.shape = .call ∧ n.unwrap.callee?.bind ctx.signatures.returns? = some d

instance (ctx : Context) (n : Node) (d : TypeName) : Decidable (ctx.Returns n d) :=
  inferInstanceAs (Decidable (_ ∧ _))

/-- The node assigns a value to a name, and is not cut off. -/
structure Context.Assigns (ctx : Context) (n : Node) (name : String) (value : Node) : Prop where
  kind : n.kind = .assignment ∨ n.kind = .compoundAssignment
  target : n.targetName? = some name
  value : n.child? .right = some value
  allowed : ctx.directives.cutsOff n.line = false

variable {ctx : Context} {known : Tracker} {c : Cursor} {name : String} {value : Node}
  {d : TypeName}

/-! ## Comparisons -/

/-- A call has the type that its function returns, whatever is declared and whatever is known. -/
theorem typeOf_of_returns (h : ctx.Returns value d) (declared : Option TypeName) :
    ctx.typeOf known (some value) declared = d := by
  simp only [Context.typeOf, inferType, Node.inferredType, h.1, h.2, Option.getD_some]

theorem not_isArrayLiteral_of_returns (h : ctx.Returns value d) :
    isArrayLiteral (some value) = false := by
  simp [isArrayLiteral, h.1]

/-- What is reported of a value that has the type declared for it. -/
def selfReports (ctx : Context) (site : Site) (n : Node) (name : String) (d : TypeName)
    (value : Node) : List Diagnostic :=
  if !TypeName.isComplex d || TypeName.isArray d then []
  else [mismatch ctx site n name d d (some value)]

theorem compared_of_returns (h : ctx.Returns value d) (site : Site) (n : Node) :
    compared ctx known site n name d (TypeName.isComplex d) (some value) =
      selfReports ctx site n name d value := by
  have haccepts : ctx.accepts known d (TypeName.isComplex d) (some value) =
      (!TypeName.isComplex d || TypeName.isArray d) := by
    rw [Context.accepts, typeOf_of_returns h, Bool.eq_iff_iff,
      isMatch_self_iff (not_isArrayLiteral_of_returns h)]
    simp
  rw [compared, selfReports, haccepts, typeOf_of_returns h]

/-! ## What is known of complexity -/

/-- Of every variable it is known whether its declared type is complex. -/
def Flagged (known : Tracker) : Prop :=
  ∀ name b, (name, b) ∈ known.entries → ∀ d, b.declared = some d →
    b.complex = TypeName.isComplex d

theorem visit_flagged (h : Flagged known) (c : Cursor) :
    Flagged ((visit ctx known c).bindings ctx known) := by
  intro name b hb d hd
  have ht := visit_taken ctx known c
  rcases mem_visit_bindings hb with hold | hmade
  · exact h name b hold d hd
  · generalize visit ctx known c = v at ht hmade
    cases hmade with
    | annotated name value a =>
      obtain ⟨-, -, -, ha⟩ := ht
      obtain rfl := Option.some.inj hd
      exact Source.complex_of_annotation? ha
    | unannotated name value =>
      obtain rfl := Option.some.inj hd
      rfl
    | assignment name declared complex value =>
      obtain ⟨inferred, -, -, hf, -⟩ := ht
      exact h name _ (NameMap.mem_of_find? hf) d hd

theorem walk_flagged (ctx : Context) (cs : List Cursor) : Flagged (walk ctx {} cs).bindings := by
  refine walk_induction (P := fun s => Flagged s.bindings) (fun s c hs => ?_) ?_ cs
  · rw [(step_effect ctx s c).bindings]
    exact visit_flagged hs c
  · intro name b hb
    cases hb

/-! ## What is known of declared types -/

/-- Without a declaration in between, what is known of a variable changes in the inferred type at
most. -/
theorem walk_keeps_declared (ctx : Context) {s : State} {b : Binding}
    (h : s.bindings.find? name = some b) {cs : List Cursor}
    (hcs : ∀ c ∈ cs, c.node.kind = .variableDeclarator → c.node.boundName? ≠ some name) :
    ∃ t, (walk ctx s cs).bindings.find? name = some { b with inferred := t } := by
  have hsame := walk_declaration ctx s hcs
  rw [h, Option.map_some] at hsame
  obtain ⟨⟨declared, inferred, complex⟩, hfind, heq⟩ := Option.map_eq_some_iff.mp hsame
  cases heq
  exact ⟨inferred, hfind⟩

/-! ## Declarations and assignments -/

theorem visit_of_assigns (h : ctx.Assigns c.node name value) {inferred : TypeName}
    {complex : Bool} (hf : known.find? name = some ⟨some d, inferred, complex⟩) :
    visit ctx known c = .assignment name d complex (some value) := by
  rcases h.kind with hk | hk <;>
    simp only [visit, h.allowed, hk, Visit.ofAssignment, h.target, h.value, hf, Bool.false_eq_true,
      if_false]

/-- What an assignment of a call reports, where the variable has the type that the call returns. -/
theorem step_of_assigns {s : State} (h : ctx.Assigns c.node name value) {inferred : TypeName}
    (hf : s.bindings.find? name = some ⟨some d, inferred, TypeName.isComplex d⟩)
    (hr : ctx.Returns value d) :
    (step ctx s c).diagnostics =
      s.diagnostics ++ selfReports ctx .assignment c.node name d value := by
  rw [(step_effect ctx s c).diagnostics, visit_of_assigns h hf, Visit.reports,
    compared_of_returns hr]

/-- Where the type found for a value is the type declared for it, the value is accepted exactly if
the type is simple or an array type. So the result of a function in a variable with the type that
the function returns is reported exactly if the type is a union that does not end like an array
type, or another complex type: at the declaration of the variable, at an assignment, and, where
types are inferred, at the assignment of another result to a variable that was declared with one. -/
theorem returned_type_reported (ctx : Context) (d : TypeName) :
    (∀ (value : Option Node) (known : Tracker) (signatures : Registry),
      isArrayLiteral value = false → inferType value known signatures (some d) = d →
      (isMatch d (inferType value known signatures (some d)) value (TypeName.isComplex d) = true ↔
        TypeName.isComplex d = false ∨ TypeName.isArray d = true)) ∧
    (∀ (s : State) (c : Cursor) (name : String) (value : Node) (a : Annotation),
      ctx.Declares c.node name value → ctx.source.annotation? c = some a → a.declared = d →
      ctx.Returns value d →
      (step ctx s c).diagnostics =
        s.diagnostics ++ selfReports ctx .declaration c.node name d value) ∧
    (∀ (before : List Cursor) (c : Cursor) (name : String) (value : Node) (b : Binding),
      ctx.Assigns c.node name value → (walk ctx {} before).bindings.find? name = some b →
      b.declared = some d → ctx.Returns value d →
      (step ctx (walk ctx {} before) c).diagnostics =
        (walk ctx {} before).diagnostics ++ selfReports ctx .assignment c.node name d value) ∧
    ∀ (s : State) (c e : Cursor) (between : List Cursor) (name : String) (value value' : Node),
      ctx.infer = true →
      ctx.Declares c.node name value → ctx.source.annotation? c = none → ctx.Returns value d →
      (∀ b ∈ between, b.node.kind = .variableDeclarator → b.node.boundName? ≠ some name) →
      ctx.Assigns e.node name value' → ctx.Returns value' d →
      (walk ctx s (c :: between ++ [e])).diagnostics =
        (walk ctx s (c :: between)).diagnostics ++
          selfReports ctx .assignment e.node name d value' := by
  refine ⟨?_, ?_, ?_, ?_⟩
  · intro value known signatures hl ht
    rw [ht]
    exact isMatch_self_iff hl
  · intro s c name value a hc ha hd hr
    subst hd
    rw [(step_effect ctx s c).diagnostics, visit_of_declares hc, ha]
    dsimp only [Option.elim, Visit.reports]
    rw [Source.complex_of_annotation? ha, compared_of_returns hr]
  · intro before c name value b hc hf hd hr
    have hflag := walk_flagged ctx before name b (NameMap.mem_of_find? hf) d hd
    obtain ⟨declared, inferred, complex⟩ := b
    subst hd hflag
    exact step_of_assigns hc hf hr
  · intro s c e between name value value' hi hc ha hr hbetween he hr'
    -- the declaration records the type of the call as the declared type
    have hdeclared : (step ctx s c).bindings.find? name =
        some ⟨some d, d, TypeName.isComplex d⟩ := by
      rw [(step_effect ctx s c).bindings, visit_of_declares hc, ha]
      simp [Visit.bindings, hi, typeOf_of_returns hr, Tracker.declare, Tracker.binding]
    obtain ⟨t, ht⟩ := walk_keeps_declared ctx hdeclared hbetween
    rw [walk_append, walk_cons, walk_cons, walk_nil]
    exact step_of_assigns he ht hr'

/-- A function that returns a union, a variable of this type with its result, and a variable
without a type that has first one result and then another. -/
def returnedTypes : Source :=
  .ofOutline "a.js"
    "/** @returns \x7bstring|number\x7d */\nfunction f() \x7b\x7d\nlet u /*: string|number */ = f();\nlet x = f();\nx = f();"
    [.rule "program" "" 0 103 5, .rule "comment" "" 0 31 0,
      .rule "function_declaration" "" 32 47 1, .rule "identifier" "name" 41 42 0,
      .rule "lexical_declaration" "" 48 81 1, .rule "variable_declarator" "" 52 80 3,
      .rule "identifier" "name" 52 53 0, .rule "comment" "" 54 74 0,
      .rule "call_expression" "value" 77 80 1, .rule "identifier" "function" 77 78 0,
      .rule "lexical_declaration" "" 82 94 1, .rule "variable_declarator" "" 86 93 2,
      .rule "identifier" "name" 86 87 0, .rule "call_expression" "value" 90 93 1,
      .rule "identifier" "function" 90 91 0, .rule "expression_statement" "" 95 103 1,
      .rule "assignment_expression" "" 95 102 2, .rule "identifier" "left" 95 96 0,
      .rule "call_expression" "right" 99 102 1, .rule "identifier" "function" 99 100 0]

namespace returnedTypes

/-- What the walk works with where types are inferred. -/
def context : Context := fileContext true returnedTypes

/-- The declarator of `u`. -/
def typed : Cursor := returnedTypes.root.cursorAt 5

/-- The declarator of `x`. -/
def untyped : Cursor := returnedTypes.root.cursorAt 11

/-- The assignment to `x`. -/
def assigned : Cursor := returnedTypes.root.cursorAt 16

theorem typed_declares : ∃ value, context.Declares typed.node "u" value ∧
    context.Returns value "string|number" := by
  obtain ⟨value, hvalue, hr⟩ := Node.exists_child_of_any
    (by decide +kernel : ((typed.node.child? .value).any
      fun v => decide (context.Returns v "string|number")) = true)
  exact ⟨value, ⟨by decide +kernel, by decide +kernel, hvalue, by decide +kernel⟩, hr⟩

theorem untyped_declares : ∃ value, context.Declares untyped.node "x" value ∧
    context.Returns value "string|number" := by
  obtain ⟨value, hvalue, hr⟩ := Node.exists_child_of_any
    (by decide +kernel : ((untyped.node.child? .value).any
      fun v => decide (context.Returns v "string|number")) = true)
  exact ⟨value, ⟨by decide +kernel, by decide +kernel, hvalue, by decide +kernel⟩, hr⟩

theorem assigned_assigns : ∃ value, context.Assigns assigned.node "x" value ∧
    context.Returns value "string|number" := by
  obtain ⟨value, hvalue, hr⟩ := Node.exists_child_of_any
    (by decide +kernel : ((assigned.node.child? .right).any
      fun v => decide (context.Returns v "string|number")) = true)
  exact ⟨value, ⟨.inl (by decide +kernel), by decide +kernel, hvalue, by decide +kernel⟩, hr⟩

end returnedTypes

open returnedTypes in
theorem returnedTypes_reported :
    (∃ value, context.Declares typed.node "u" value ∧ context.Returns value "string|number" ∧
      context.source.annotation? typed = some ⟨"string|number", "string|number", true⟩ ∧
      isMatch "string|number" (inferType value {} context.signatures (some "string|number")) value
        (TypeName.isComplex "string|number") = false ∧
      (step context {} typed).diagnostics =
        [mismatch context .declaration typed.node "u" "string|number" "string|number" value]) ∧
    ∃ value, context.Assigns assigned.node "x" value ∧ context.Returns value "string|number" ∧
      (step context (walk context {} [untyped]) assigned).diagnostics =
        (walk context {} [untyped]).diagnostics ++
          selfReports context .assignment assigned.node "x" "string|number" value ∧
      (walk context {} (untyped :: [typed] ++ [assigned])).diagnostics =
        (walk context {} (untyped :: [typed])).diagnostics ++
          selfReports context .assignment assigned.node "x" "string|number" value := by
  obtain ⟨hself, hdeclaration, hassignment, hinferred⟩ :=
    returned_type_reported context "string|number"
  obtain ⟨u, hu, hur⟩ := typed_declares
  obtain ⟨x, hx, hxr⟩ := untyped_declares
  obtain ⟨x', hx', hxr'⟩ := assigned_assigns
  have hannotation : context.source.annotation? typed =
      some ⟨"string|number", "string|number", true⟩ := by decide +kernel
  have hbinding : (walk context {} [untyped]).bindings.find? "x" =
      some ⟨some "string|number", "string|number", true⟩ := by decide +kernel
  refine ⟨⟨u, hu, hur, hannotation, ?_, ?_⟩, x', hx', hxr', ?_, ?_⟩
  · rw [Bool.eq_false_iff, Ne, hself u {} context.signatures
      (not_isArrayLiteral_of_returns hur) (typeOf_of_returns hur _)]
    decide
  · rw [hdeclaration {} typed "u" u _ hu hannotation rfl hur, selfReports, if_neg (by decide),
      List.nil_append]
  · exact hassignment [untyped] assigned "x" x' _ hx' hbinding rfl hxr'
  · refine hinferred {} untyped assigned [typed] "x" x x' rfl hx (by decide +kernel) hxr
      ?_ hx' hxr'
    rw [List.forall_mem_singleton]
    decide +kernel

end CommentTypes.Check
