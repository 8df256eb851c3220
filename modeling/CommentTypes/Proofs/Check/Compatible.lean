import CommentTypes.Proofs.Check.Visit
import CommentTypes.Proofs.Tree.Order

/-!
# Variables have the types they are declared with

`TypeName.Compatible` says when a type declared and a type found fit, without the expression at
hand. A comparison that succeeds gives types that fit (`isMatch_compatible`), so a variable whose
types do not fit owes them to a declaration that was reported: `State.Accounted` holds all along a
walk (`step_accounted`, `walk_accounted`).
-/

namespace CommentTypes

/-- The types are equal, or an array was found for an array type, or a member for a union that is
not an array type. -/
def TypeName.Compatible (declared found : TypeName) : Prop :=
  declared = found ∨ (isArray declared = true ∧ found = BaseType.array.name) ∨
    (isUnion declared = true ∧ isArray declared = false ∧ found ∈ members declared)

/-- The variable has a declared type, and its inferred type fits it. -/
def Binding.Compatible (b : Binding) : Prop :=
  ∃ declared, b.declared = some declared ∧ TypeName.Compatible declared b.inferred

/-- A value that satisfies a type has a type that fits it. -/
theorem isMatch_compatible {declared found : TypeName} {value : Option Node} {complex : Bool}
    (h : isMatch declared found value complex = true) : TypeName.Compatible declared found := by
  unfold isMatch at h
  split at h
  · exact .inl (by simpa using h)
  · split at h
    · rename_i ha
      simp only [matchesArray, Bool.and_eq_true, Bool.or_eq_true, beq_iff_eq] at h
      rcases h.1 with hf | hf
      · exact .inr (.inl ⟨ha, hf⟩)
      · exact .inl hf.symm
    · rename_i ha
      split at h
      · rename_i hu
        exact .inr (.inr ⟨hu, by simpa using ha, by simpa using h⟩)
      · cases h

namespace Check

/-- A mismatch says of the declaration of a variable what is known of the variable. -/
def Reported (ds : List Diagnostic) (name : String) (b : Binding) : Prop :=
  ∃ d ∈ ds, d.site = .declaration ∧ d.subject = name ∧ b.declared = some d.expected ∧
    b.inferred = d.found

/-- Every variable is compatible or reported. -/
def State.Accounted (s : State) : Prop :=
  ∀ name b, (name, b) ∈ s.bindings.entries → b.Compatible ∨ Reported s.diagnostics name b

/-- A variable that is compatible or reported has a declared type. -/
theorem State.Accounted.exists_declared {s : State} (hs : s.Accounted) {name : String} {b : Binding}
    (hb : (name, b) ∈ s.bindings.entries) : ∃ d, b.declared = some d := by
  rcases hs name b hb with ⟨d, hd, -⟩ | ⟨report, -, -, -, hd, -⟩
  · exact ⟨d, hd⟩
  · exact ⟨report.expected, hd⟩

/-- A binding that a visit makes is compatible, or the visit reports it. -/
theorem Visit.Makes.accounted {ctx : Context} {known : Tracker} {v : Visit} {name : String}
    {b : Binding} (h : v.Makes ctx known name b) (n : Node) :
    b.Compatible ∨ Reported (v.reports ctx known n) name b := by
  cases h with
  | annotated name value a =>
    by_cases ha : ctx.accepts known a.declared a.complex (some value)
    · exact .inl ⟨a.declared, rfl, isMatch_compatible ha⟩
    · refine .inr ⟨mismatch ctx .declaration n name a.declared
        (ctx.typeOf known (some value) (some a.declared)) (some value), ?_, rfl, rfl, rfl, rfl⟩
      simp [reports, compared, ha]
  | unannotated name value => exact .inl ⟨_, rfl, .inl rfl⟩
  | assignment name declared complex value ha =>
    exact .inl ⟨declared, rfl, isMatch_compatible ha⟩

theorem step_accounted (ctx : Context) {s : State} (hs : s.Accounted) (c : Cursor) :
    (step ctx s c).Accounted := by
  have he := step_effect ctx s c
  intro name b hb
  rw [he.bindings] at hb
  rw [he.diagnostics]
  have hmono : ∀ {ds ds'}, ds ⊆ ds' → Reported ds name b → Reported ds' name b :=
    fun hsub ⟨d, hd, h⟩ => ⟨d, hsub hd, h⟩
  rcases mem_visit_bindings hb with hold | hmade
  · exact (hs name b hold).imp_right (hmono (List.subset_append_left ..))
  · exact (hmade.accounted c.node).imp_right (hmono (List.subset_append_right ..))

theorem walk_accounted (ctx : Context) (cs : List Cursor) : (walk ctx {} cs).Accounted :=
  walk_induction (P := State.Accounted) (fun _ c hs => step_accounted ctx hs c)
    (fun _ _ h => by cases h) cs

/-- At every point of a walk, every variable is compatible with its declared type, or the mismatch
was reported for its declaration. In a file without mismatches every variable is compatible. -/
theorem bindings_compatible_or_reported :
    (∀ (ctx : Context) (k : Nat) (name : String) (b : Binding),
      (name, b) ∈ (walk ctx {} (ctx.source.root.cursors.take k)).bindings.entries →
      b.Compatible ∨
        Reported (walk ctx {} (ctx.source.root.cursors.take k)).diagnostics name b) ∧
    ∀ (infer : Bool) (s : Source), (source infer s).value.result.diagnostics = [] →
      ∀ (name : String) (b : Binding), (name, b) ∈ (source infer s).value.bindings.entries →
        b.Compatible := by
  refine ⟨fun ctx k => walk_accounted ctx _, fun infer s hd name b hb => ?_⟩
  cases h : (Directives.ofSource s).skipped with
  | true =>
    rw [source_of_skipped h] at hb
    cases hb
  | false =>
    rw [source_of_not_skipped h] at hb hd
    rcases walk_accounted _ _ name b hb with hc | ⟨d, hmem, -⟩
    · exact hc
    · -- nothing is reported, so no mismatch can account for the variable
      have hnil : (fileState infer s).diagnostics = [] := hd
      rw [fileState] at hnil
      rw [hnil] at hmem
      cases hmem

/-- A variable that is declared a number and given a string. -/
def wrongDeclaration : Source :=
  .ofOutline "a.js"
    "let n /*: number */ = 'x';"
    [.rule "program" "" 0 26 1, .rule "lexical_declaration" "" 0 26 1,
      .rule "variable_declarator" "" 4 25 3, .rule "identifier" "name" 4 5 0,
      .rule "comment" "" 6 19 0, .rule "string" "value" 22 25 0]

/-- A variable that is declared with a union and given one of its members. -/
def unionDeclaration : Source :=
  .ofOutline "a.js"
    "let u /*: string|number */ = 1;"
    [.rule "program" "" 0 31 1, .rule "lexical_declaration" "" 0 31 1,
      .rule "variable_declarator" "" 4 30 3, .rule "identifier" "name" 4 5 0,
      .rule "comment" "" 6 26 0, .rule "number" "value" 29 30 0]

theorem declarations_compatible_or_reported :
    ((("n", ⟨some "number", "string", false⟩) : String × Binding) ∈
        (walk (fileContext false wrongDeclaration) {}
          (wrongDeclaration.root.cursors.take 3)).bindings.entries ∧
      (Binding.Compatible ⟨some "number", "string", false⟩ ∨
        Reported (walk (fileContext false wrongDeclaration) {}
          (wrongDeclaration.root.cursors.take 3)).diagnostics "n"
          ⟨some "number", "string", false⟩)) ∧
    ((source true unionDeclaration).value.result.diagnostics = [] ∧
      (("u", ⟨some "string|number", "number", true⟩) : String × Binding) ∈
        (source true unionDeclaration).value.bindings.entries ∧
      Binding.Compatible ⟨some "string|number", "number", true⟩) := by
  have hwrong : (("n", ⟨some "number", "string", false⟩) : String × Binding) ∈
      (walk (fileContext false wrongDeclaration) {}
        (wrongDeclaration.root.cursors.take 3)).bindings.entries := by decide +kernel
  have hclean : (source true unionDeclaration).value.result.diagnostics = [] := by decide +kernel
  have hunion : (("u", ⟨some "string|number", "number", true⟩) : String × Binding) ∈
      (source true unionDeclaration).value.bindings.entries := by decide +kernel
  exact ⟨⟨hwrong, bindings_compatible_or_reported.1 _ 3 _ _ hwrong⟩,
    hclean, hunion, bindings_compatible_or_reported.2 true unionDeclaration hclean _ _ hunion⟩

end Check

end CommentTypes
