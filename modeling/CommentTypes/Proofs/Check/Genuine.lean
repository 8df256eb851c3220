import CommentTypes.Proofs.Check.Cutoff
import CommentTypes.Proofs.Check.Returned
import CommentTypes.Proofs.Tree.Below

/-!
# Every diagnostic is a mismatch

What a diagnostic expects comes from an annotation, a binding or a parameter, what it has found from
the shape of a value, and the text that it shows from the value once more. They fit each other
(`Diagnostic.Genuine`): two types that are the same are reported only where the type is complex, and
never for an argument (`isComplex_of_refused`), and the text shown is that of a literal of the type
that was found (`showsLiteral_of_mismatch`).

That needs nothing of what the walk knows but that it takes a type for complex exactly if it is.
This holds in the whole walk, so each visit finds genuine mismatches only (`Visit.Finds.genuine`),
and `diagnostics_genuine` concludes the same of all diagnostics of a file.
-/

namespace CommentTypes

/-! ## Literals -/

/-- The type of a literal of the kind: of a string, a number or a boolean. -/
def Kind.literalType? : Kind → Option BaseType
  | .string => some .string
  | .number => some .number
  | .trueLiteral | .falseLiteral => some .boolean
  | _ => none

theorem Node.literalType?_of_shape {n : Node}
    (h : n.shape = .string ∨ n.shape = .number ∨ n.shape = .boolean) :
    n.unwrap.kind.literalType? = n.shape.baseType? := by
  unfold shape bareShape at h ⊢
  cases hk : n.unwrap.kind with
  | unary =>
    simp only [hk] at h
    split at h <;> simp at h
  | _ => simp_all [Kind.literalType?, Shape.baseType?]

namespace Check

/-- A value that has a text to show is a literal that is not too long, and the text is its own. -/
theorem exists_literalType_of_valueText {n : Node} (h : valueText n ≠ "") :
    ∃ b, n.unwrap.kind.literalType? = some b ∧ n.shape.baseType? = some b ∧
      valueText n = n.unwrap.text ∧ n.unwrap.text.length ≤ valueLimit := by
  have hshape : n.shape = .string ∨ n.shape = .number ∨ n.shape = .boolean := by
    refine Decidable.byContradiction fun hnot => h ?_
    unfold valueText
    split <;> simp_all
  have hshort : n.unwrap.text.length ≤ valueLimit := by
    refine Decidable.byContradiction fun hlong => h ?_
    unfold valueText
    split <;> simp only [hlong, if_false]
  rw [Node.literalType?_of_shape hshape]
  rcases hshape with hs | hs | hs <;> simp [valueText, hs, hshort, Shape.baseType?]

/-- A literal has the type of its shape, whatever is known and whatever is declared. -/
theorem typeOf_of_baseType? {ctx : Context} {known : Tracker} {value : Node} {b : BaseType}
    (h : value.shape.baseType? = some b) (declared : Option TypeName) :
    ctx.typeOf known (some value) declared = b.name := by
  simp only [Context.typeOf, inferType, Node.inferredType]
  cases hs : value.shape <;> simp_all [Shape.baseType?]

/-- A value whose type is the one declared for it is refused only if that type is complex. -/
theorem isComplex_of_refused {ctx : Context} {known : Tracker} {declared : TypeName}
    {complex : Bool} {value : Option Node} (hflag : complex = TypeName.isComplex declared)
    (h : ctx.accepts known declared complex value = false)
    (hsame : declared = ctx.typeOf known value (some declared)) :
    TypeName.isComplex declared = true := by
  rw [Context.accepts, ← hsame, hflag] at h
  cases hcomplex : TypeName.isComplex declared with
  | true => rfl
  | false => simp [isMatch, hcomplex] at h

end Check

/-! ## Comparisons of a file -/

/-- A value of the file is compared with a type, at a node where the outcome is reported: the value
that a declarator binds to a name, the value that is assigned to a name, or the argument for a
parameter of the function that is called. -/
inductive Source.Compares (s : Source) : Site → String → Node → Node → Prop where
  | declaration {c : Cursor} {name : String} {value : Node} (listed : c ∈ s.root.cursors)
    (kind : c.node.kind = .variableDeclarator) (bound : c.node.boundName? = some name)
    (child : c.node.child? .value = some value) : Compares s .declaration name c.node value
  | assignment {c : Cursor} {name : String} {value : Node} (listed : c ∈ s.root.cursors)
    (kind : c.node.kind = .assignment ∨ c.node.kind = .compoundAssignment)
    (target : c.node.targetName? = some name) (child : c.node.child? .right = some value) :
    Compares s .assignment name c.node value
  | argument {c : Cursor} {f : Signature} {param : String × TypeName} {value : Node}
    (listed : c ∈ s.root.cursors) (kind : c.node.kind = .call)
    (called : c.node.callee?.bind (Registry.ofTree s.root).find? = some f)
    (paired : (param, value) ∈ f.params.zip c.node.arguments) :
    Compares s .argument param.1 value value

theorem Source.Compares.mem_preorder {s : Source} {site : Site} {subject : String}
    {place value : Node} (h : s.Compares site subject place value) :
    value ∈ s.root.preorder := by
  cases h with
  | declaration listed _ _ child | assignment listed _ _ child =>
    exact Node.mem_preorder_of_child? (Node.cursors_within listed).node child
  | argument listed _ _ paired =>
    exact Node.mem_preorder_of_mem_arguments (Node.cursors_within listed).node
      (List.of_mem_zip paired).2

namespace Diagnostic

/-- The diagnostic is about a literal in any number of parentheses: it stands where the value is
compared, has found the type of the literal and shows its text. -/
def ShowsLiteral (d : Diagnostic) (s : Source) : Prop :=
  ∃ place value b, s.Compares d.site d.subject place value ∧
    d.location = Check.locationOf s place ∧ value.unwrap ∈ s.root.preorder ∧
    value.unwrap.kind.literalType? = some b ∧ d.found = b.name ∧ d.value = value.unwrap.text ∧
    d.value.length ≤ 40

/-- The parts of a diagnostic for a file fit each other. -/
structure Genuine (d : Diagnostic) (s : Source) : Prop where
  argument : d.site = .argument → d.expected ≠ d.found
  complex : d.site ≠ .argument → d.expected = d.found →
    ∃ c ∈ d.expected.toList, c ∈ ['[', ']', '<', '>', '|', '&']
  literal : d.value ≠ "" → d.ShowsLiteral s
  file : d.location.file = s.path

end Diagnostic

namespace Check

variable {infer : Bool} {s : Source}

/-- A mismatch that shows a text shows the literal that was compared. -/
theorem showsLiteral_of_mismatch {site : Site} {subject : String} {place value : Node}
    (h : s.Compares site subject place value) (known : Tracker) (expected : TypeName)
    (declared : Option TypeName) (hvalue : valueText value ≠ "") :
    (mismatch (fileContext infer s) site place subject expected
      ((fileContext infer s).typeOf known (some value) declared) (some value)).ShowsLiteral s := by
  obtain ⟨b, hkind, hshape, htext, hlimit⟩ := exists_literalType_of_valueText hvalue
  refine ⟨place, value, b, h, rfl, Node.unwrap_mem_preorder h.mem_preorder, hkind,
    typeOf_of_baseType? hshape declared, htext, ?_⟩
  show (valueText value).length ≤ 40
  rw [htext]
  exact hlimit

theorem exists_complexChar {t : TypeName} (h : TypeName.isComplex t = true) :
    ∃ c ∈ t.toList, c ∈ ['[', ']', '<', '>', '|', '&'] := by
  obtain ⟨c, hc, hcomplex⟩ := List.any_eq_true.mp h
  refine ⟨c, hc, ?_⟩
  simp only [TypeName.complexChars, List.contains_iff_mem] at hcomplex
  have hsub : ['&', '<', '>', '[', ']', '|'] ⊆ ['[', ']', '<', '>', '|', '&'] := by decide
  exact hsub hcomplex

/-- A visit to a node of the file finds genuine mismatches, if it is known of every variable whether
its type is complex. -/
theorem Visit.Finds.genuine {known : Tracker} {c : Cursor} {d : Diagnostic}
    (h : (visit (fileContext infer s) known c).Finds (fileContext infer s) known c.node d)
    (hc : c ∈ s.root.cursors) (hknown : Flagged known) : d.Genuine s := by
  have ht := visit_taken (fileContext infer s) known c
  generalize visit (fileContext infer s) known c = v at h ht
  cases h with
  | declaration name value a refused =>
    obtain ⟨hkind, hname, hvalue, ha⟩ := ht
    refine ⟨by nofun, fun _ hsame => ?_,
      showsLiteral_of_mismatch (.declaration hc hkind hname hvalue) known _ _, rfl⟩
    have hflag := Source.complex_of_annotation? ha
    exact exists_complexChar (isComplex_of_refused hflag refused hsame)
  | assignment name declared complex value refused =>
    obtain ⟨inferred, hkind, hname, hfind, hvalue⟩ := ht
    refine ⟨by nofun, fun _ hsame => ?_, ?_, rfl⟩
    · -- whether the type is complex was recorded when the variable was declared
      have hflag := hknown name _ (NameMap.mem_of_find? hfind) declared rfl
      exact exists_complexChar (isComplex_of_refused hflag refused hsame)
    · cases value with
      | none => exact fun h => absurd rfl h
      | some value =>
        exact showsLiteral_of_mismatch (.assignment hc hkind hname hvalue) known _ _
  | argument f arguments param value paired refused =>
    obtain ⟨hkind, hcalled, -, rfl⟩ := ht
    exact ⟨fun _ => Ne.symm refused, fun hsite => absurd rfl hsite,
      showsLiteral_of_mismatch (.argument hc hkind hcalled paired) known _ _, rfl⟩

/-- Every diagnostic of a file is a mismatch. An argument is reported only if its type differs from
that of the parameter, another value only if its type differs from the declared one or the declared
type is complex. Where the diagnostic shows a value, this is the text of a string, number or boolean
literal of at most 40 characters at the place of the diagnostic, without the parentheses around it,
and the type found is that of the literal. The place is in the file that was checked. -/
theorem diagnostics_genuine (infer : Bool) (s : Source) (d : Diagnostic)
    (h : d ∈ (source infer s).value.result.diagnostics) :
    d.Genuine s ∧ (source infer s).value.result.file = s.path := by
  cases hs : (Directives.ofSource s).skipped with
  | true =>
    rw [source_of_skipped hs] at h
    cases h
  | false =>
    obtain ⟨v, hv, hd⟩ := (mem_source_diagnostics hs).mp h
    obtain ⟨before, after, hcursors, hstate⟩ := exists_of_mem_visits hv
    have hc : v.2 ∈ s.root.cursors := by rw [hcursors]; simp
    have hknown : Flagged v.1.bindings := by
      rw [hstate]
      exact walk_flagged (fileContext infer s) before
    exact ⟨(Visit.finds_of_mem_reports hd).genuine hc hknown, by rw [source_of_not_skipped hs]⟩

/-- A union that a function returns, a string in parentheses and a boolean as an argument, none of
them accepted. -/
def threeMismatches : Source :=
  .ofOutline "a.js"
    ("/** @returns \x7bstring|number\x7d */\nfunction f() \x7b\x7d\n" ++
      "/** @param \x7bnumber\x7d a */\nfunction g(a) \x7b\x7d\n" ++
      "let u /*: string|number */ = f();\nlet n /*: number */ = ('x');\ng(true);")
    [.rule "program" "" 0 161 7, .rule "comment" "" 0 31 0,
      .rule "function_declaration" "" 32 47 1, .rule "identifier" "name" 41 42 0,
      .rule "comment" "" 48 72 0, .rule "function_declaration" "" 73 89 1,
      .rule "identifier" "name" 82 83 0, .rule "lexical_declaration" "" 90 123 1,
      .rule "variable_declarator" "" 94 122 3, .rule "identifier" "name" 94 95 0,
      .rule "comment" "" 96 116 0, .rule "call_expression" "value" 119 122 1,
      .rule "identifier" "function" 119 120 0, .rule "lexical_declaration" "" 124 152 1,
      .rule "variable_declarator" "" 128 151 3, .rule "identifier" "name" 128 129 0,
      .rule "comment" "" 130 143 0, .rule "parenthesized_expression" "value" 146 151 1,
      .rule "string" "" 147 150 0, .rule "expression_statement" "" 153 161 1,
      .rule "call_expression" "" 153 160 2, .rule "identifier" "function" 153 154 0,
      .rule "arguments" "arguments" 154 160 1, .rule "true" "" 155 159 0]

namespace threeMismatches

/-- The declaration with the type that the function returns. -/
def union : Diagnostic :=
  { location := ⟨"a.js", 5, 5⟩, subject := "u", expected := "string|number"
    found := "string|number" }

/-- The declaration with a literal in parentheses. -/
def parenthesized : Diagnostic :=
  { location := ⟨"a.js", 6, 5⟩, subject := "n", expected := "number", found := "string"
    value := "'x'" }

/-- The argument of the call. -/
def passed : Diagnostic :=
  { location := ⟨"a.js", 7, 3⟩, subject := "a", expected := "number", found := "boolean"
    site := .argument, value := "true" }

end threeMismatches

open threeMismatches in
theorem threeMismatches_genuine :
    (source false threeMismatches).value.result.diagnostics = [union, parenthesized, passed] ∧
    (union.expected = union.found ∧
      ∃ c ∈ union.expected.toList, c ∈ ['[', ']', '<', '>', '|', '&']) ∧
    (parenthesized.value ≠ "" ∧ parenthesized.ShowsLiteral threeMismatches) ∧
    (passed.site = .argument ∧ passed.expected ≠ passed.found) ∧
    (passed.value ≠ "" ∧ passed.ShowsLiteral threeMismatches) ∧
    passed.location.file = threeMismatches.path := by
  have hreports : (source false threeMismatches).value.result.diagnostics =
      [union, parenthesized, passed] := by decide +kernel
  have hgenuine : ∀ d ∈ [union, parenthesized, passed], d.Genuine threeMismatches :=
    fun d hd => (diagnostics_genuine false threeMismatches d (hreports ▸ hd)).1
  have hunion := hgenuine union (by simp)
  have hparenthesized := hgenuine parenthesized (by simp)
  have hpassed := hgenuine passed (by simp)
  have hshown : parenthesized.value ≠ "" := by decide
  have hshown' : passed.value ≠ "" := by decide
  exact ⟨hreports, ⟨rfl, hunion.complex (by decide) rfl⟩, ⟨hshown, hparenthesized.literal hshown⟩,
    ⟨rfl, hpassed.argument rfl⟩, ⟨hshown', hpassed.literal hshown'⟩, hpassed.file⟩

end Check

end CommentTypes
