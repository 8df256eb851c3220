import CommentTypes.Proofs.Tree.Stripped
import CommentTypes.Typing.Compatibility

/-!
# Parentheses and comments do not matter to types

The type of an expression and the verdict about it are the same with and without the parentheses and
comments in it, at every level (`inferredType_stripped`, `isMatch_stripped`), because the shape, the
name and the elements of an expression are.

The name that a call calls and the arguments of the call are read off the call as it stands, and not
through parentheses around it: they are those of the node inside the parentheses
(`callee?_of_stripped`, `arguments_of_stripped`).
-/

namespace CommentTypes

namespace Node

variable {n : Node}

theorem literalType_stripped (hg : n.Grammatical) : n.stripped.literalType = n.literalType := by
  rw [literalType, literalType, shape_stripped hg]

/-- The name that the call inside the parentheses calls. -/
theorem callee?_of_stripped (hg : n.Grammatical) : n.stripped.callee? = n.unwrap.callee? := by
  have hcall := callee?_stripped hg.unwrap (inner?_unwrap n)
  rw [stripped_eq_unwrap, callee?, child?_withRole]
  exact hcall

/-- The arguments of the call inside the parentheses, in the same order and each stripped. -/
theorem arguments_of_stripped (hg : n.Grammatical) :
    n.stripped.arguments = n.unwrap.arguments.map stripped := by
  have hcall := arguments_stripped hg.unwrap (inner?_unwrap n)
  rw [stripped_eq_unwrap, arguments, child?_withRole]
  exact hcall

/-- The type of an expression does not depend on parentheses and comments. -/
theorem inferredType_stripped (hg : n.Grammatical) (known : Tracker) (signatures : Registry)
    (declared : Option TypeName) :
    n.stripped.inferredType known signatures declared =
      n.inferredType known signatures declared := by
  have hcallee : n.stripped.unwrap.callee? = n.unwrap.callee? := by
    rw [unwrap_stripped hg, ← callee?_of_stripped hg, stripped_eq_unwrap n]
  rw [inferredType, inferredType, shape_stripped hg, hcallee, text_unwrap_stripped hg]

theorem elementsMatch_stripped (hg : n.Grammatical) (d : TypeName) :
    n.stripped.elementsMatch d = n.elementsMatch d := by
  rw [elementsMatch, elementsMatch, shape_stripped hg, elements_stripped hg]
  cases he : n.elements with
  | nil => rfl
  | cons first rest =>
    have hfirst : first ∈ n.unwrap.children := by
      have hmem : first ∈ n.elements := he ▸ List.mem_cons_self
      unfold elements at hmem
      split at hmem
      · exact (List.mem_filter.mp hmem).1
      · cases hmem
    rw [List.map_cons]
    simp only [literalType_stripped (hg.unwrap.of_mem_children hfirst)]

/-- The verdict about an expression does not depend on parentheses and comments. -/
theorem isMatch_stripped (hg : n.Grammatical) (d found : TypeName) (complex : Bool) :
    isMatch d found (some n.stripped) complex = isMatch d found (some n) complex := by
  simp only [isMatch, matchesArray, Option.all_some, elementsMatch_stripped hg]

end Node

/-- A tree without its comments and parentheses has neither, and is the same to the checker: it has
the same shape, name and types, the verdicts about it are the same, and its elements are the same in
the same order, each stripped in turn. Callee and arguments are those of the call inside the
parentheses around the tree, so they are its own if there are none. -/
theorem parentheses_and_comments_transparent (e : Node) (hg : e.Grammatical)
    (he : e.isComment = false) :
    e.stripped.IsStripped ∧
    e.stripped.shape = e.shape ∧
    e.stripped.identifier? = e.identifier? ∧
    e.stripped.literalType = e.literalType ∧
    (∀ (known : Tracker) (signatures : Registry) (declared : Option TypeName),
      inferType (some e.stripped) known signatures declared =
        inferType (some e) known signatures declared) ∧
    (∀ (d found : TypeName) (complex : Bool),
      isMatch d found (some e.stripped) complex = isMatch d found (some e) complex) ∧
    e.stripped.elements = e.elements.map Node.stripped ∧
    e.stripped.callee? = e.unwrap.callee? ∧
    e.stripped.arguments = e.unwrap.arguments.map Node.stripped ∧
    (e.inner? = none → e.stripped.callee? = e.callee? ∧
      e.stripped.arguments = e.arguments.map Node.stripped) :=
  ⟨Node.isStripped_stripped hg he, Node.shape_stripped hg, Node.identifier?_stripped hg,
    Node.literalType_stripped hg, fun known signatures declared =>
      Node.inferredType_stripped hg known signatures declared,
    fun d found complex => Node.isMatch_stripped hg d found complex, Node.elements_stripped hg,
    Node.callee?_of_stripped hg, Node.arguments_of_stripped hg,
    fun h => ⟨Node.callee?_stripped hg h, Node.arguments_stripped hg h⟩⟩

/-- A call in parentheses with a comment, and with parentheses around its callee and in its
argument. -/
def wrappedCall : Source :=
  .ofOutline "a.js"
    "let x = (/* c */ (f)([(1), 's']));"
    [.rule "program" "" 0 34 1, .rule "lexical_declaration" "" 0 34 1,
      .rule "variable_declarator" "" 4 33 2, .rule "identifier" "name" 4 5 0,
      .rule "parenthesized_expression" "value" 8 33 2, .rule "comment" "" 9 16 0,
      .rule "call_expression" "" 17 32 2, .rule "parenthesized_expression" "function" 17 20 1,
      .rule "identifier" "" 18 19 0, .rule "arguments" "arguments" 20 32 1,
      .rule "array" "" 21 31 2, .rule "parenthesized_expression" "" 22 25 1,
      .rule "number" "" 23 24 0, .rule "string" "" 27 30 0]

/-- The value of the variable. -/
def wrappedCall.value : Node := (wrappedCall.root.cursorAt 4).node

theorem wrappedCall_transparent :
    wrappedCall.value.Grammatical ∧ wrappedCall.value.isComment = false ∧
    wrappedCall.value.stripped.shape = .call ∧
    wrappedCall.value.stripped.callee? = some "f" ∧
    wrappedCall.value.stripped.arguments.map Node.shape = [.array] ∧
    wrappedCall.value.unwrap.inner? = none ∧
    wrappedCall.value.unwrap.stripped.callee? = wrappedCall.value.unwrap.callee? := by
  have hg : wrappedCall.value.Grammatical := by decide +kernel
  have hgu : wrappedCall.value.unwrap.Grammatical := by decide +kernel
  have he : wrappedCall.value.isComment = false := by decide +kernel
  have hbare : wrappedCall.value.unwrap.inner? = none := Node.inner?_unwrap _
  obtain ⟨-, hshape, -, -, -, -, -, hcallee, harguments, -⟩ :=
    parentheses_and_comments_transparent _ hg he
  obtain ⟨-, -, -, -, -, -, -, -, -, hcall⟩ :=
    parentheses_and_comments_transparent _ hgu (by decide +kernel)
  refine ⟨hg, he, hshape.trans (by decide +kernel), hcallee.trans (by decide +kernel), ?_, hbare,
    (hcall hbare).1⟩
  rw [harguments]
  decide +kernel

/-- A call in parentheses, as a statement. -/
def bracketedCall : Source :=
  .ofOutline "a.js"
    "(f(1));"
    [.rule "program" "" 0 7 1, .rule "expression_statement" "" 0 7 1,
      .rule "parenthesized_expression" "" 0 6 1, .rule "call_expression" "" 1 5 2,
      .rule "identifier" "function" 1 2 0, .rule "arguments" "arguments" 2 5 1,
      .rule "number" "" 3 4 0]

/-- An array with parentheses that are no rule of the grammar. -/
def unnamedParentheses : Source :=
  .ofOutline "a.js"
    "[(1)]"
    [.rule "array" "" 0 5 1,
      { Outline.Entry.rule "parenthesized_expression" "" 1 4 1 with named := false },
      .rule "number" "" 2 3 0]

/-- Parentheses around an operator. -/
def operatorParentheses : Source :=
  .ofOutline "a.js"
    "(void)0"
    [.rule "unary_expression" "" 0 7 2, .rule "parenthesized_expression" "operator" 0 6 1,
      .rule "void" "" 1 5 0, .rule "number" "" 6 7 0]

/-- Parentheses in the place of a list of arguments. -/
def argumentParentheses : Source :=
  .ofOutline "a.js"
    "f([1,2])"
    [.rule "call_expression" "" 0 8 2, .rule "identifier" "function" 0 1 0,
      .rule "parenthesized_expression" "arguments" 1 8 1, .rule "array" "" 2 7 2,
      .rule "number" "" 3 4 0, .rule "number" "" 5 6 0]

/-- Parentheses around a call hide its callee and its arguments. In trees that the grammar does not
make, parentheses may also matter to elements, shapes and arguments. -/
theorem bracketedCall_not_transparent :
    ((bracketedCall.root.cursorAt 2).node.Grammatical ∧
      (bracketedCall.root.cursorAt 2).node.isComment = false ∧
      (bracketedCall.root.cursorAt 2).node.stripped.callee? ≠
        (bracketedCall.root.cursorAt 2).node.callee? ∧
      (bracketedCall.root.cursorAt 2).node.stripped.arguments.length ≠
        (bracketedCall.root.cursorAt 2).node.arguments.length) ∧
    unnamedParentheses.root.stripped.elements.length ≠ unnamedParentheses.root.elements.length ∧
    operatorParentheses.root.stripped.shape ≠ operatorParentheses.root.shape ∧
    argumentParentheses.root.stripped.arguments.length ≠
      argumentParentheses.root.arguments.length := by
  refine ⟨?_, ?_, ?_, ?_⟩ <;> decide +kernel

end CommentTypes
