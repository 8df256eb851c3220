import CommentTypes.Proofs.Annotation.Supply
import CommentTypes.Proofs.Check.Visit
import CommentTypes.Proofs.Text.Lines
import CommentTypes.Proofs.Tree.Below

/-!
# Files without annotations

The checker looks for types in two places: in whole lines of the text and in the bodies of
comments. Both are parts of the text, where the nodes of the tree have the texts that they span
(`Node.IsExcerpt`). So a text without an inline annotation, a type tag or a parameter tag gives no
declaration an annotation and no function a parameter. Where types are not inferred nothing is ever
tracked then: a variable would be tracked only as a copy of another one.

`unannotated_silent` concludes that no comparison is made in such a text and no mismatch reported.
-/

namespace CommentTypes

open Text.Utf8 (decode encode IsPlain)

/-! ## Texts of nodes -/

/-- The text of the node is what a text has between the node's ends. -/
def Node.IsExcerpt (n : Node) (text : String) : Prop :=
  n.text = String.ofList
    (decode (((encode text.toList).take n.stop.byte).drop n.start.byte))

instance (n : Node) (text : String) : Decidable (n.IsExcerpt text) :=
  inferInstanceAs (Decidable (_ = _))

theorem Node.bodyOf_isInfix (cs : List Char) : bodyOf cs <:+: cs := by
  have hdrop : cs.drop 2 <:+: cs := (List.drop_suffix 2 cs).isInfix
  unfold bodyOf
  split
  · dsimp only
    split
    · exact ((List.dropLast_prefix _).trans (List.dropLast_prefix _)).isInfix.trans hdrop
    · exact hdrop
  · split
    · exact hdrop
    · exact List.infix_rfl

/-- A word in the body of a comment stands in the text. A node may cut a character in two, so the
word is followed through the bytes. -/
theorem Node.IsExcerpt.infix_of_body {n : Node} {text : String} (h : n.IsExcerpt text)
    {word : List Char} (hw : ∀ c ∈ word, IsPlain c) (hbody : word <:+: n.body.toList) :
    word <:+: text.toList := by
  rw [body, String.toList_ofList] at hbody
  have htext : word <:+: n.text.toList := hbody.trans (bodyOf_isInfix _)
  rw [h, String.toList_ofList] at htext
  have hbytes : encode word <:+: encode text.toList :=
    (Text.Utf8.infix_of_decode hw htext).trans
      ((List.drop_suffix _ _).isInfix.trans (List.take_prefix _ _).isInfix)
  exact Text.Utf8.infix_of_encode hw hbytes

/-! ## Files without annotations -/

/-- Nothing in the text of a file annotates a declaration or a parameter. -/
structure Source.Unannotated (s : Source) : Prop where
  excerpts : ∀ n ∈ s.root.preorder, n.IsExcerpt s.text
  noInline : Form.inline.find? s.text = none
  noType : ¬ "@type".toList <:+: s.text.toList
  noParam : ¬ "@param".toList <:+: s.text.toList

namespace Source.Unannotated

variable {s : Source} (h : s.Unannotated)
include h

theorem typeTag_eq_none {n : Node} (hn : n ∈ s.root.preorder) :
    Form.typeTag.find? n.body = none :=
  Form.find?_typeTag_of_not_infix fun hword =>
    h.noType ((h.excerpts n hn).infix_of_body (Text.Utf8.plain_of_all (by decide)) hword)

theorem paramsOf_eq_nil {n : Node} (hn : n ∈ s.root.preorder) : Tags.paramsOf n.body = [] :=
  Tags.paramsOf_of_not_infix fun hword =>
    h.noParam ((h.excerpts n hn).infix_of_body (Text.Utf8.plain_of_all (by decide)) hword)

/-- No declaration has an annotation. -/
theorem annotation?_eq_none {c : Cursor} (hc : c ∈ s.root.cursors) : s.annotation? c = none := by
  have hinline : s.inlineType? c.node = none :=
    Form.find?_inline_of_infix h.noInline (s.spanText_isInfix c.node)
  have htag : s.tagType? c = none :=
    List.findSome?_eq_none_iff.mpr fun n hn => h.typeTag_eq_none (candidates_mem_preorder hc hn)
  rw [annotation?, hinline, htag]
  rfl

/-- No function has a tagged parameter. -/
theorem params_eq_nil {name : String} {f : Signature}
    (hf : (Registry.ofTree s.root).find? name = some f) : f.params = [] := by
  rw [Registry.find?_ofTree] at hf
  obtain ⟨c, hc, hcf⟩ := List.mem_filterMap.mp (List.mem_reverse.mp (List.mem_of_find?_eq_some hf))
  obtain ⟨name', -, rfl⟩ := Option.map_eq_some_iff.mp hcf
  refine List.flatMap_eq_nil_iff.mpr fun body hbody => ?_
  obtain ⟨n, hn, rfl⟩ := List.mem_map.mp hbody
  exact h.paramsOf_eq_nil (leadingComments_mem_preorder hc hn)

end Source.Unannotated

namespace Check

/-- Nothing is known, compared or reported. -/
structure State.Silent (s : State) : Prop where
  bindings : s.bindings = {}
  diagnostics : s.diagnostics = []
  checks : s.checks = 0

/-- While nothing is known, a node is at most a declaration without an annotation. -/
theorem visit_unannotated {s : Source} (h : s.Unannotated) (infer : Bool) {c : Cursor}
    (hc : c ∈ s.root.cursors) :
    visit (fileContext infer s) {} c = .pass ∨
      ∃ name value, visit (fileContext infer s) {} c = .unannotated name value := by
  have ht := visit_taken (fileContext infer s) {} c
  cases hv : visit (fileContext infer s) {} c with
  | pass => exact .inl rfl
  | unannotated name value => exact .inr ⟨name, value, rfl⟩
  | annotated name value a =>
    rw [hv] at ht
    obtain ⟨-, -, -, ha⟩ := ht
    cases (h.annotation?_eq_none hc).symm.trans ha
  | assignment name declared complex value =>
    rw [hv] at ht
    obtain ⟨inferred, -, -, hf, -⟩ := ht
    cases hf
  | call f arguments =>
    rw [hv] at ht
    obtain ⟨-, hf, hp, -⟩ := ht
    obtain ⟨name, -, hname⟩ := Option.bind_eq_some_iff.mp hf
    rw [Signature.hasParams, h.params_eq_nil hname] at hp
    cases hp

/-- One step further, nothing is known yet. -/
theorem step_silent {s : Source} (h : s.Unannotated) {c : Cursor} (hc : c ∈ s.root.cursors)
    {t : State} (ht : t.Silent) : (step (fileContext false s) t c).Silent := by
  obtain ⟨hb, hd, hk⟩ := step_effect (fileContext false s) t c
  rw [ht.bindings] at hb hd hk
  rw [ht.diagnostics] at hd
  rw [ht.checks] at hk
  rcases visit_unannotated h false hc with hv | ⟨name, value, hv⟩
  · rw [hv] at hb hd hk
    exact ⟨hb, hd, hk⟩
  · rw [hv] at hb hd hk
    -- a copy of a known variable would be tracked, but none is known
    have hcopy : value.identifier?.any (({} : Tracker).contains ·) = false := by
      cases value.identifier? <;> rfl
    refine ⟨?_, hd, hk⟩
    rw [hb, Visit.bindings, hcopy]
    rfl

theorem walk_silent {s : Source} (h : s.Unannotated) (k : Nat) :
    (walk (fileContext false s) {} (s.root.cursors.take k)).Silent :=
  walk_induction_of_mem (P := State.Silent)
    (fun _ hc _ => step_silent h (List.mem_of_mem_take hc)) ⟨rfl, rfl, rfl⟩

/-- The outcome of a file without annotations. -/
theorem source_silent {s : Source} (h : s.Unannotated) :
    (source false s).value.result.checks = 0 ∧ (source false s).value.result.diagnostics = [] ∧
      (source false s).value.bindings = {} := by
  cases hs : (Directives.ofSource s).skipped with
  | true =>
    rw [source_of_skipped hs]
    exact ⟨rfl, rfl, rfl⟩
  | false =>
    have hw := walk_silent h s.root.cursors.length
    rw [List.take_length] at hw
    rw [source_of_not_skipped hs]
    exact ⟨hw.checks, hw.diagnostics, hw.bindings⟩

/-- Code without annotations is silent. A text in which no inline annotation, no type tag and no
parameter tag stands has a syntax error, or nothing in it is compared and nothing reported, and at
no point of the walk over it is a variable tracked. -/
theorem unannotated_silent (path content : String) (root : Node)
    (excerpts : ∀ n ∈ root.preorder, n.IsExcerpt content)
    (noType : ¬ "@type".toList <:+: content.toList)
    (noParam : ¬ "@param".toList <:+: content.toList)
    (noInline : Form.inline.find? content = none) :
    (∃ n, (text false path content root).value = .error (Source.malformed path content n)) ∨
    ∃ o, (text false path content root).value = .ok o ∧
      o.result.checks = 0 ∧ o.result.diagnostics = [] ∧ o.bindings = {} ∧
      ∀ k, (walk (fileContext false (.ofTree path content root)) {}
        (root.cursors.take k)).bindings = {} := by
  have h : (Source.ofTree path content root).Unannotated := ⟨excerpts, noInline, noType, noParam⟩
  rw [text_eq]
  cases root.syntaxFault? with
  | some n => exact .inl ⟨n, rfl⟩
  | none =>
    obtain ⟨hchecks, hdiagnostics, hbindings⟩ := source_silent h
    exact .inr ⟨_, rfl, hchecks, hdiagnostics, hbindings, fun k => (walk_silent h k).bindings⟩

/-- A function that is said to return a string, a variable with its result, a copy of the variable
and an assignment to the copy. -/
def returnsOnly : Source :=
  .ofOutline "a.js"
    "/** @returns \x7bstring\x7d é */\nfunction f(a) \x7b\x7d\nlet x = f(1), y = x;\ny = 2; // : number"
    [.rule "program" "" 0 84 5, .rule "comment" "" 0 27 0,
      .rule "function_declaration" "" 28 44 1, .rule "identifier" "name" 37 38 0,
      .rule "lexical_declaration" "" 45 65 2, .rule "variable_declarator" "" 49 57 2,
      .rule "identifier" "name" 49 50 0, .rule "call_expression" "value" 53 57 2,
      .rule "identifier" "function" 53 54 0, .rule "arguments" "arguments" 54 57 1,
      .rule "number" "" 55 56 0, .rule "variable_declarator" "" 59 64 2,
      .rule "identifier" "name" 59 60 0, .rule "identifier" "value" 63 64 0,
      .rule "expression_statement" "" 66 72 1, .rule "assignment_expression" "" 66 71 2,
      .rule "identifier" "left" 66 67 0, .rule "number" "right" 70 71 0,
      .rule "comment" "" 73 84 0]

theorem returnsOnly_silent :
    ((∀ n ∈ returnsOnly.root.preorder, n.IsExcerpt returnsOnly.text) ∧
      ¬ "@type".toList <:+: returnsOnly.text.toList ∧
      ¬ "@param".toList <:+: returnsOnly.text.toList ∧
      Form.inline.find? returnsOnly.text = none) ∧
    ∃ o, (text false "a.js" returnsOnly.text returnsOnly.root).value = .ok o ∧
      o.result.checks = 0 ∧ o.result.diagnostics = [] ∧ o.bindings = {} ∧
      ∀ k, (walk (fileContext false (.ofTree "a.js" returnsOnly.text returnsOnly.root)) {}
        (returnsOnly.root.cursors.take k)).bindings = {} := by
  have hexcerpts : ∀ n ∈ returnsOnly.root.preorder, n.IsExcerpt returnsOnly.text := by
    decide +kernel
  have htype : ¬ "@type".toList <:+: returnsOnly.text.toList := by decide +kernel
  have hparam : ¬ "@param".toList <:+: returnsOnly.text.toList := by decide +kernel
  have hinline : Form.inline.find? returnsOnly.text = none := by decide +kernel
  have hsound : returnsOnly.root.faulty = false := by decide +kernel
  refine ⟨⟨hexcerpts, htype, hparam, hinline⟩,
    (unannotated_silent "a.js" _ _ hexcerpts htype hparam hinline).resolve_left ?_⟩
  rintro ⟨n, hn⟩
  rw [text_eq, Node.syntaxFault?, hsound] at hn
  cases hn

end Check

end CommentTypes
