import CommentTypes.Proofs.Check.Visit
import CommentTypes.Proofs.Tree.Order

/-!
# Where types come from

A type that is found for a value is a base type, a type that a function is said to return, or an
array type that an annotation declares (`Context.Findable`): an array literal takes over the type
that is declared for it, and a name has a type that was found before. A type that is expected of a
variable was declared by an annotation or found for a value (`Context.Expectable`).

Types go round: what is found for one variable is declared for its copies, and an array literal may
take it over from there. `typeOf_findable` is the step that keeps all of them among those above, and
`walk_inVocabulary` says so of whole walks.
-/

namespace CommentTypes

/-- The annotation of a declarator among some nodes declares the type. -/
def Source.DeclaresType (s : Source) (cs : List Cursor) (t : TypeName) : Prop :=
  ∃ c ∈ cs, c.node.kind = .variableDeclarator ∧ ∃ a, s.annotation? c = some a ∧ a.declared = t

/-- A function is said to return the type. -/
def Registry.ReturnsType (r : Registry) (t : TypeName) : Prop :=
  ∃ f ∈ r.values, f.returns = some t

/-- A function is said to have a parameter of the type. -/
def Registry.TakesType (r : Registry) (t : TypeName) : Prop :=
  ∃ f ∈ r.values, ∃ p ∈ f.params, p.2 = t

theorem NameMap.mem_values_of_find? {α : Type} {m : NameMap α} {name : String} {value : α}
    (h : m.find? name = some value) : value ∈ m.values :=
  List.mem_map.mpr ⟨(name, value), mem_of_find? h, rfl⟩

namespace Check

/-- A type that may be found for a value, once the walk has been at some nodes. -/
def Context.Findable (ctx : Context) (cs : List Cursor) (t : TypeName) : Prop :=
  t ∈ BaseType.all.map BaseType.name ∨ ctx.signatures.ReturnsType t ∨
    TypeName.isArray t = true ∧ ctx.source.DeclaresType cs t

/-- A type that may be expected of a variable, once the walk has been at some nodes. -/
def Context.Expectable (ctx : Context) (cs : List Cursor) (t : TypeName) : Prop :=
  ctx.Findable cs t ∨ ctx.source.DeclaresType cs t

/-- All types that are known of variables or reported come from where they may come from. -/
structure InVocabulary (ctx : Context) (cs : List Cursor) (known : Tracker)
    (ds : List Diagnostic) : Prop where
  inferred : ∀ name b, (name, b) ∈ known.entries → ctx.Findable cs b.inferred
  declared : ∀ name b, (name, b) ∈ known.entries →
    ∃ t, b.declared = some t ∧ ctx.Expectable cs t
  found : ∀ d ∈ ds, ctx.Findable cs d.found
  expected : ∀ d ∈ ds, ctx.Expectable cs d.expected ∨
    d.site = .argument ∧ ctx.signatures.TakesType d.expected

variable {ctx : Context} {cs cs' : List Cursor} {known : Tracker} {ds : List Diagnostic}
  {t : TypeName}

/-! ## Types -/

theorem findable_base (b : BaseType) : ctx.Findable cs b.name :=
  .inl (List.mem_map_of_mem (by cases b <;> decide))

theorem Context.Findable.mono (h : ctx.Findable cs t) (hcs : cs ⊆ cs') : ctx.Findable cs' t :=
  h.imp_right (Or.imp_right fun ⟨ha, c, hc, hdeclares⟩ => ⟨ha, c, hcs hc, hdeclares⟩)

theorem Context.Expectable.mono (h : ctx.Expectable cs t) (hcs : cs ⊆ cs') :
    ctx.Expectable cs' t :=
  h.imp (·.mono hcs) fun ⟨c, hc, hdeclares⟩ => ⟨c, hcs hc, hdeclares⟩

/-- The type of a value may be found, if the types known of names may be, and the type declared for
the value if it is an array type. -/
theorem typeOf_findable (hknown : ∀ name b, (name, b) ∈ known.entries → ctx.Findable cs b.inferred)
    (value : Option Node) {declared : Option TypeName}
    (hdeclared : ∀ t ∈ declared, TypeName.isArray t = true → ctx.Findable cs t) :
    ctx.Findable cs (ctx.typeOf known value declared) := by
  unfold Context.typeOf inferType
  cases value with
  | none => exact findable_base .unknown
  | some n =>
    dsimp only [Node.inferredType]
    split
    · cases hreturns : n.unwrap.callee?.bind ctx.signatures.returns? with
      | none => exact findable_base .unknown
      | some t =>
        obtain ⟨name, -, hname⟩ := Option.bind_eq_some_iff.mp hreturns
        obtain ⟨f, hf, ht⟩ := Option.bind_eq_some_iff.mp hname
        exact .inr (.inl ⟨f, NameMap.mem_values_of_find? hf, ht⟩)
    · cases declared with
      | none => exact findable_base .array
      | some t =>
        dsimp only [Node.arrayType]
        split
        · rename_i harray
          exact hdeclared t rfl (Bool.and_eq_true_iff.mp harray).2
        · exact findable_base .array
    · cases hresolve : known.resolve? n.unwrap.text with
      | none => exact findable_base .reference
      | some t =>
        obtain ⟨b, hb, rfl⟩ := Option.map_eq_some_iff.mp hresolve
        exact hknown _ b (NameMap.mem_of_find? hb)
    · exact findable_base _

/-- An array type that may be expected may be found, and it is all that a value takes over. -/
theorem typeOf_findable_of_expectable
    (hknown : ∀ name b, (name, b) ∈ known.entries → ctx.Findable cs b.inferred)
    (value : Option Node) (ht : ctx.Expectable cs t) :
    ctx.Findable cs (ctx.typeOf known value (some t)) := by
  refine typeOf_findable hknown value fun t' ht' harray => ?_
  obtain rfl := Option.mem_some_iff.mp ht'
  exact ht.elim id fun hdeclares => .inr (.inr ⟨harray, hdeclares⟩)

/-! ## Walks -/

namespace InVocabulary

theorem mono (h : InVocabulary ctx cs known ds) (hcs : cs ⊆ cs') :
    InVocabulary ctx cs' known ds where
  inferred name b hb := (h.inferred name b hb).mono hcs
  declared name b hb := (h.declared name b hb).imp fun _ ht => ⟨ht.1, ht.2.mono hcs⟩
  found d hd := (h.found d hd).mono hcs
  expected d hd := (h.expected d hd).imp_left (·.mono hcs)

variable (h : InVocabulary ctx cs known ds)
include h

/-- The type that is declared for a variable to which something is assigned. -/
theorem of_find? {name : String} {b : Binding} (hf : known.find? name = some b) {t : TypeName}
    (ht : b.declared = some t) : ctx.Expectable cs t := by
  obtain ⟨t', ht', hexpected⟩ := h.declared name b (NameMap.mem_of_find? hf)
  rwa [Option.some.inj (ht.symm.trans ht')]

/-- The types of a binding that a visit makes. -/
theorem of_makes {c : Cursor} {v : Visit} (ht : v.Taken ctx known c) (hc : c ∈ cs) {name : String}
    {b : Binding} (hb : v.Makes ctx known name b) :
    ctx.Findable cs b.inferred ∧ ∃ t, b.declared = some t ∧ ctx.Expectable cs t := by
  cases hb with
  | annotated name value a =>
    obtain ⟨hk, -, -, ha⟩ := ht
    have hexpected : ctx.Expectable cs a.declared := .inr ⟨c, hc, hk, a, ha, rfl⟩
    exact ⟨typeOf_findable_of_expectable h.inferred (some value) hexpected, _, rfl, hexpected⟩
  | unannotated name value =>
    have hfound : ctx.Findable cs (ctx.typeOf known (some value) none) :=
      typeOf_findable h.inferred _ (by simp)
    exact ⟨hfound, _, rfl, .inl hfound⟩
  | assignment name declared complex value =>
    obtain ⟨inferred, -, -, hf, -⟩ := ht
    have hexpected := h.of_find? hf rfl
    exact ⟨typeOf_findable_of_expectable h.inferred value hexpected, _, rfl, hexpected⟩

/-- The types of a mismatch that a visit finds. -/
theorem of_finds {c : Cursor} {v : Visit} (ht : v.Taken ctx known c) (hc : c ∈ cs) {n : Node}
    {d : Diagnostic} (hd : v.Finds ctx known n d) :
    ctx.Findable cs d.found ∧ (ctx.Expectable cs d.expected ∨
      d.site = .argument ∧ ctx.signatures.TakesType d.expected) := by
  cases hd with
  | declaration name value a =>
    obtain ⟨hk, -, -, ha⟩ := ht
    have hexpected : ctx.Expectable cs a.declared := .inr ⟨c, hc, hk, a, ha, rfl⟩
    exact ⟨typeOf_findable_of_expectable h.inferred (some value) hexpected, .inl hexpected⟩
  | assignment name declared complex value =>
    obtain ⟨inferred, -, -, hf, -⟩ := ht
    have hexpected := h.of_find? hf rfl
    exact ⟨typeOf_findable_of_expectable h.inferred value hexpected, .inl hexpected⟩
  | argument f arguments param value hpaired =>
    obtain ⟨-, hf, -, -⟩ := ht
    obtain ⟨name, -, hf⟩ := Option.bind_eq_some_iff.mp hf
    have hfound : ctx.Findable cs (ctx.typeOf known (some value) none) :=
      typeOf_findable h.inferred _ (by simp)
    exact ⟨hfound,
      .inr ⟨rfl, f, NameMap.mem_values_of_find? hf, param, (List.of_mem_zip hpaired).1, rfl⟩⟩

end InVocabulary

/-- A node adds no types but those that may be found or expected once the walk has been at it. -/
theorem step_inVocabulary {s : State} (h : InVocabulary ctx cs s.bindings s.diagnostics)
    (c : Cursor) :
    InVocabulary ctx (cs ++ [c]) (step ctx s c).bindings (step ctx s c).diagnostics := by
  have he := step_effect ctx s c
  have ht := visit_taken ctx s.bindings c
  have hc : c ∈ cs ++ [c] := List.mem_append_right _ List.mem_cons_self
  replace h := h.mono (List.subset_append_left cs [c])
  have hbindings : ∀ name b, (name, b) ∈ (step ctx s c).bindings.entries →
      ctx.Findable (cs ++ [c]) b.inferred ∧
        ∃ t, b.declared = some t ∧ ctx.Expectable (cs ++ [c]) t := by
    intro name b hb
    rw [he.bindings] at hb
    rcases mem_visit_bindings hb with hold | hmade
    · exact ⟨h.inferred name b hold, h.declared name b hold⟩
    · exact h.of_makes ht hc hmade
  have hreports : ∀ d ∈ (step ctx s c).diagnostics,
      ctx.Findable (cs ++ [c]) d.found ∧ (ctx.Expectable (cs ++ [c]) d.expected ∨
        d.site = .argument ∧ ctx.signatures.TakesType d.expected) := by
    intro d hd
    rw [he.diagnostics] at hd
    rcases List.mem_append.mp hd with hold | hnew
    · exact ⟨h.found d hold, h.expected d hold⟩
    · exact h.of_finds ht hc (Visit.finds_of_mem_reports hnew)
  exact
    { inferred := fun name b hb => (hbindings name b hb).1
      declared := fun name b hb => (hbindings name b hb).2
      found := fun d hd => (hreports d hd).1
      expected := fun d hd => (hreports d hd).2 }

/-- The types after a walk that goes on after some nodes. -/
theorem walk_inVocabulary_of {s : State} {done : List Cursor}
    (h : InVocabulary ctx done s.bindings s.diagnostics) (cs : List Cursor) :
    InVocabulary ctx (done ++ cs) (walk ctx s cs).bindings (walk ctx s cs).diagnostics := by
  -- the nodes that are done grow with the walk, since a type may come from any of them
  induction cs generalizing s done with
  | nil => rwa [List.append_nil]
  | cons c cs ih =>
    have hnext := ih (step_inVocabulary h c)
    rwa [List.append_assoc, List.singleton_append] at hnext

theorem walk_inVocabulary (ctx : Context) (cs : List Cursor) :
    InVocabulary ctx cs (walk ctx {} cs).bindings (walk ctx {} cs).diagnostics := by
  have hstart : InVocabulary ctx [] ({} : State).bindings ({} : State).diagnostics :=
    ⟨nofun, nofun, nofun, nofun⟩
  exact walk_inVocabulary_of hstart cs

/-- Types are closed. At every point of a walk over a file, the types that are inferred for
variables and found in mismatches are base types, types that functions are said to return, and array types
that the annotations of declarators declare. The types that are declared for variables and expected
in mismatches are among these or declared by an annotation too, or else they are those of parameters
where an argument is reported. The same holds of the outcome for a file. -/
theorem types_in_vocabulary :
    (∀ (ctx : Context) (k : Nat),
      InVocabulary ctx (ctx.source.root.cursors.take k)
        (walk ctx {} (ctx.source.root.cursors.take k)).bindings
        (walk ctx {} (ctx.source.root.cursors.take k)).diagnostics) ∧
    ∀ (infer : Bool) (s : Source),
      InVocabulary (fileContext infer s) s.root.cursors (source infer s).value.bindings
        (source infer s).value.result.diagnostics := by
  refine ⟨fun ctx k => walk_inVocabulary ctx _, fun infer s => ?_⟩
  cases h : (Directives.ofSource s).skipped with
  | true =>
    rw [source_of_skipped h]
    exact ⟨by simp, by simp, by simp, by simp⟩
  | false =>
    rw [source_of_not_skipped h]
    exact walk_inVocabulary (fileContext infer s) s.root.cursors

/-- A variable of an array type, a copy of it to which an array is assigned, and the result of a
function in a variable of another type. -/
def circulatingTypes : Source :=
  .ofOutline "a.js"
    ("/** @returns \x7bnumber[]\x7d */\nfunction f() \x7b\x7d\nlet a /*: string[] */ = [];\n" ++
      "let b = a;\nb = ['x'];\nlet c /*: number */ = f();")
    [.rule "program" "" 0 119 6, .rule "comment" "" 0 26 0,
      .rule "function_declaration" "" 27 42 1, .rule "identifier" "name" 36 37 0,
      .rule "lexical_declaration" "" 43 70 1, .rule "variable_declarator" "" 47 69 3,
      .rule "identifier" "name" 47 48 0, .rule "comment" "" 49 64 0,
      .rule "array" "value" 67 69 0, .rule "lexical_declaration" "" 71 81 1,
      .rule "variable_declarator" "" 75 80 2, .rule "identifier" "name" 75 76 0,
      .rule "identifier" "value" 79 80 0, .rule "expression_statement" "" 82 92 1,
      .rule "assignment_expression" "" 82 91 2, .rule "identifier" "left" 82 83 0,
      .rule "array" "right" 86 91 1, .rule "string" "" 87 90 0,
      .rule "lexical_declaration" "" 93 119 1, .rule "variable_declarator" "" 97 118 3,
      .rule "identifier" "name" 97 98 0, .rule "comment" "" 99 112 0,
      .rule "call_expression" "value" 115 118 1, .rule "identifier" "function" 115 116 0]

theorem circulatingTypes_in_vocabulary :
    let ctx := fileContext false circulatingTypes
    let outcome := (source false circulatingTypes).value
    ((("b", ⟨some "string[]", "string[]", true⟩) : String × Binding) ∈ outcome.bindings.entries ∧
      ctx.Findable circulatingTypes.root.cursors "string[]") ∧
    (outcome.result.diagnostics.map (fun d => (d.subject, d.expected, d.found)) =
        [("c", "number", "number[]")] ∧
      ctx.Findable circulatingTypes.root.cursors "number[]") := by
  intro ctx outcome
  obtain ⟨hcopy, hreports⟩ :
      (("b", ⟨some "string[]", "string[]", true⟩) : String × Binding) ∈ outcome.bindings.entries ∧
      outcome.result.diagnostics.map (fun d => (d.subject, d.expected, d.found)) =
        [("c", "number", "number[]")] := by decide +kernel
  have hclosed := types_in_vocabulary.2 false circulatingTypes
  refine ⟨⟨hcopy, hclosed.inferred "b" _ hcopy⟩, hreports, ?_⟩
  have hmem : (("c", "number", "number[]") : String × TypeName × TypeName) ∈
      outcome.result.diagnostics.map (fun d => (d.subject, d.expected, d.found)) := by
    rw [hreports]
    exact List.mem_cons_self
  obtain ⟨d, hd, htypes⟩ := List.mem_map.mp hmem
  obtain ⟨-, hpair⟩ := Prod.mk.inj htypes
  rw [← (Prod.mk.inj hpair).2]
  exact hclosed.found d hd

end Check

end CommentTypes
