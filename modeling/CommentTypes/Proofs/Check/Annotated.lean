import CommentTypes.Proofs.Annotation.Reach
import CommentTypes.Proofs.Check.Frame
import CommentTypes.Proofs.Check.Silent
import CommentTypes.Proofs.Tree.Address

/-!
# Annotated declarations are checked

Annotations are looked for on whole lines, not in the text of a declarator. But a node that lies in
the text (`Node.LiesIn`) has its text on its lines (`Node.LiesIn.isInfix_spanText`), and a form that
is found in a part of some lines is found in them. So a declarator that holds an inline annotation
has one (`exists_annotation_of_text`), and the walk comes to it once.

`annotated_declarations_checked` concludes that one comparison is made for it, and that its variable
is known by the type of the annotation afterwards.
-/

namespace CommentTypes

open Text.Utf8 (encode encode_append decode_encode)

/-- The node covers a part of the text, and has it for its own text. -/
def Node.LiesIn (n : Node) (text : String) : Prop :=
  n.IsExcerpt text ∧ ∃ before own after, n.Covers text before own after

theorem Node.IsExcerpt.toList_text {n : Node} {text : String} {before own after : List Char}
    (h : n.IsExcerpt text) (hn : n.Covers text before own after) : n.text.toList = own := by
  have hstart : n.start.byte = (encode before).length := by rw [hn.start, Position.ofByte]
  have hstop : n.stop.byte = (encode (before ++ own)).length := by rw [hn.stop, Position.ofByte]
  have hbytes : encode text.toList = encode (before ++ own) ++ encode after := by
    rw [hn.split, encode_append]
  rw [h, String.toList_ofList, hstart, hstop, hbytes, List.take_left, encode_append, List.drop_left,
    decode_encode]

/-- The text of a node is a part of its lines. -/
theorem Node.LiesIn.isInfix_spanText {s : Source} {n : Node} (h : n.LiesIn s.text) :
    n.text.toList <:+: (s.spanText n).toList := by
  obtain ⟨hexcerpt, before, own, after, hcovers⟩ := h
  obtain ⟨-, lead, trail, -, -, -, -, hspan⟩ := Source.exists_lead_trail hcovers
  rw [hexcerpt.toList_text hcovers, hspan]
  exact ⟨lead, trail, rfl⟩

/-- A declarator that holds an inline annotation is annotated, by the first annotation on its
lines. -/
theorem Source.exists_annotation_of_text {s : Source} {c : Cursor} (h : c.node.LiesIn s.text)
    (hform : (Form.inline.find? c.node.text).isSome = true) :
    ∃ o raw, Form.inline.at? s.text.toList o.start = some o ∧ o.parts = [raw] ∧
      s.OnLines o c.node ∧ s.annotation? c = some (.ofText raw) := by
  obtain ⟨type, htype⟩ := Option.isSome_iff_exists.mp hform
  rw [← String.ofList_toList (s := c.node.text)] at htype
  -- the first place on the lines need not be the one in the declarator
  obtain ⟨o, hplace⟩ := exists_inlinePlace?_of_infix htype h.isInfix_spanText
  obtain ⟨k, rest, -, hfound, -⟩ := Pattern.exists_of_head?_occurrencesFrom hplace
  obtain ⟨-, -, raw, -, -, -, -, -, hparts⟩ := Form.inline_eq_some.mp hfound
  obtain ⟨hstart, -, hstop⟩ := rowAt_of_inlinePlace? hplace
  refine ⟨o, raw, at?_of_inlinePlace? hplace, hparts, ⟨hstart, hstop⟩, ?_⟩
  rw [annotation?_eq_supply, supply?_of_inlinePlace? hplace, Option.bind_some, Supply.type?, hparts,
    List.head?_cons, Option.map_some]

namespace Check

/-- Between two states the value of a declaration is compared, once, with the type of an annotation,
and the variable is recorded with that type. -/
structure DeclarationChecked (ctx : Context) (n : Node) (name : String) (value : Node)
    (a : Annotation) (s s' : State) : Prop where
  checks : s'.checks = s.checks + 1
  diagnostics : s'.diagnostics = s.diagnostics ++
    compared ctx s.bindings .declaration n name a.declared a.complex (some value)
  tracked : s'.bindings.find? name = some
    ⟨some a.declared, ctx.typeOf s.bindings (some value) (some a.declared), a.complex⟩

theorem step_of_annotation {ctx : Context} {c : Cursor} {name : String} {value : Node}
    (hc : ctx.Declares c.node name value) {a : Annotation}
    (ha : ctx.source.annotation? c = some a) (s : State) :
    DeclarationChecked ctx c.node name value a s (step ctx s c) := by
  have hvisit : visit ctx s.bindings c = .annotated name value a := by
    rw [visit_of_declares hc, ha]
    rfl
  have he := step_effect ctx s c
  rw [hvisit] at he
  refine ⟨he.checks, he.diagnostics, ?_⟩
  rw [he.bindings]
  simp [Visit.bindings, Tracker.declare, Tracker.binding]

/-- A cursor has one turn in the pre-order. -/
theorem exists_turn {root : Node} {c : Cursor} (h : c ∈ root.cursors) :
    ∃ before after, root.cursors = before ++ c :: after ∧ c ∉ before ∧ c ∉ after := by
  obtain ⟨before, after, hsplit⟩ := List.append_of_mem h
  have hnodup := root.cursors_nodup
  rw [hsplit, List.nodup_middle, List.nodup_cons, List.mem_append, not_or] at hnodup
  exact ⟨before, after, hsplit, hnodup.1⟩

/-- No annotated declaration goes unchecked. The outcome for a file that is not skipped is that of
the walk, and the text of every node that lies in the text is a part of its lines. The walk comes
once to a declarator that binds a name to a value, is not cut off and holds an inline annotation. It
makes one comparison there, with the type at a place on the lines of the declarator, and this is the
declared type of the variable from then on. -/
theorem annotated_declarations_checked (infer : Bool) (s : Source)
    (hs : (Directives.ofSource s).skipped = false) :
    (source infer s).value.result.status = .checked ∧
    (source infer s).value.result.checks =
      (walk (fileContext infer s) {} s.root.cursors).checks ∧
    (∀ n : Node, n.LiesIn s.text → n.text.toList <:+: (s.spanText n).toList) ∧
    ∀ c ∈ s.root.cursors, ∀ (name : String) (value : Node),
      (fileContext infer s).Declares c.node name value → c.node.LiesIn s.text →
      (Form.inline.find? c.node.text).isSome = true →
      ∃ before after, s.root.cursors = before ++ c :: after ∧ c ∉ before ∧ c ∉ after ∧
        ∃ o raw, Form.inline.at? s.text.toList o.start = some o ∧ o.parts = [raw] ∧
          s.OnLines o c.node ∧
          DeclarationChecked (fileContext infer s) c.node name value (.ofText raw)
            (walk (fileContext infer s) {} before)
            (walk (fileContext infer s) {} (before ++ [c])) := by
  refine ⟨by rw [source_of_not_skipped hs], by rw [source_of_not_skipped hs, fileState],
    fun _ h => h.isInfix_spanText, ?_⟩
  intro c hc name value hdeclares hlies hform
  obtain ⟨before, after, hturn⟩ := exists_turn hc
  obtain ⟨o, raw, hplace, hparts, hlines, ha⟩ := Source.exists_annotation_of_text hlies hform
  refine ⟨before, after, hturn.1, hturn.2.1, hturn.2.2, o, raw, hplace, hparts, hlines, ?_⟩
  rw [walk_append, walk_cons, walk_nil]
  exact step_of_annotation hdeclares ha _

/-- A declarator behind a character of two bytes, with an annotation that ends on its second
line. -/
def spreadComment : Source :=
  .ofOutline "a.js" "/*é*/ let n /*:\n number */ = 1;"
    [.rule "program" "" 0 32 2, .rule "comment" "" 0 6 0, .rule "lexical_declaration" "" 7 32 1,
      .rule "variable_declarator" "" 11 31 3, .rule "identifier" "name" 11 12 0,
      .rule "comment" "" 13 27 0, .rule "number" "value" 30 31 0]

namespace spreadComment

/-- The declarator of `n`. -/
def binder : Cursor := spreadComment.root.cursorAt 3

theorem binder_liesIn : binder.node.LiesIn spreadComment.text :=
  ⟨by decide +kernel, "/*é*/ let ".toList, "n /*:\n number */ = 1".toList, ";".toList,
    by decide +kernel, by decide +kernel, by decide +kernel⟩

theorem binder_declares :
    ∃ value, (fileContext false spreadComment).Declares binder.node "n" value := by
  obtain ⟨value, hvalue, -⟩ := Node.exists_child_of_any
    (by decide +kernel : ((binder.node.child? .value).any
      fun v => decide (v.kind = .number)) = true)
  exact ⟨value, by decide +kernel, by decide +kernel, hvalue, by decide +kernel⟩

end spreadComment

open spreadComment in
theorem spreadComment_checked :
    (Directives.ofSource spreadComment).skipped = false ∧
    binder.node.LiesIn spreadComment.text ∧
    binder.node.start.row < binder.node.stop.row ∧
    binder.node.text.toList <:+: (spreadComment.spanText binder.node).toList ∧
    (Form.inline.find? binder.node.text).isSome = true ∧
    (source false spreadComment).value.bindings.find? "n" = some ⟨some "number", "number", false⟩ ∧
    ∃ value before after, (fileContext false spreadComment).Declares binder.node "n" value ∧
      spreadComment.root.cursors = before ++ binder :: after ∧ binder ∉ before ∧
      binder ∉ after ∧
      ∃ o raw, Form.inline.at? spreadComment.text.toList o.start = some o ∧ o.parts = [raw] ∧
        spreadComment.OnLines o binder.node ∧
        DeclarationChecked (fileContext false spreadComment) binder.node "n" value
          (.ofText raw) (walk (fileContext false spreadComment) {} before)
          (walk (fileContext false spreadComment) {} (before ++ [binder])) := by
  have hs : (Directives.ofSource spreadComment).skipped = false := by decide +kernel
  have hform : (Form.inline.find? binder.node.text).isSome = true := by decide +kernel
  obtain ⟨value, hdeclares⟩ := binder_declares
  obtain ⟨-, -, hpart, hchecked⟩ := annotated_declarations_checked false spreadComment hs
  obtain ⟨before, after, hturn⟩ := hchecked binder (Node.cursorAt_mem _ _) "n" value hdeclares
    binder_liesIn hform
  exact ⟨hs, binder_liesIn, by decide +kernel, hpart _ binder_liesIn, hform, by decide +kernel,
    value, before, after, hdeclares, hturn⟩

end Check

end CommentTypes
