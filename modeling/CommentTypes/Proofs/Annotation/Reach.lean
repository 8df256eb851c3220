import CommentTypes.Proofs.Annotation.Supply
import CommentTypes.Proofs.Tree.Leading

/-!
# How far an annotation reaches

An annotation may give its type to several declarators, also to declarators of different statements:
to those on its line, or to those below its comment (`annotations_shared`). `annotation_reach` says
that it reaches no further, and that it counts before a declarator's own annotation only from the
beginning of the line.
-/

namespace CommentTypes

/-- The supply is the tag of the comment at an index of the pre-order. -/
def Supply.isTagOf (i : Nat) : Supply → Bool
  | .tag m => m.id == i
  | .inline _ => false

namespace Source

variable {s : Source}

/-- The place is on the lines of the node. -/
def OnLines (s : Source) (o : Occurrence) (n : Node) : Prop :=
  n.start.row ≤ s.rowAt o.start ∧ s.rowAt o.stop ≤ n.stop.row

/-- A comment whose tag gives the type of two declarators does not lead both, so it ends on the line
above one of them. -/
theorem above_of_shared_tag (hs : s.root.Distinct) {c d : Cursor} (hc : c ∈ s.root.cursors)
    (hd : d ∈ s.root.cursors) (hne : c ≠ d) (hkc : c.node.kind = .variableDeclarator)
    (hkd : d.node.kind = .variableDeclarator) {m : Node} (hm : s.supply? c = some (.tag m))
    (hm' : s.supply? d = some (.tag m)) :
    m ∉ c.leadingComments ∧ m.stop.row + 1 = c.node.start.row ∨
      m ∉ d.leadingComments ∧ m.stop.row + 1 = d.node.start.row := by
  have hdeclarator : ∀ {e : Cursor}, e.node.kind = .variableDeclarator →
      e.node.isComment = false ∧ e.node.kind.sharesComments = false := fun he => by
    rw [Node.isComment, he]
    exact ⟨rfl, rfl⟩
  have hdisjoint := leadingComments_disjoint hs hc hd hne (hdeclarator hkc).1 (hdeclarator hkd).1
    (hdeclarator hkc).2 (hdeclarator hkd).2
  have hc := leads_or_above (candidate_of_supply? hm)
  have hd := leads_or_above (candidate_of_supply? hm')
  by_cases hlead : m ∈ c.leadingComments
  · have hnot : m ∉ d.leadingComments := fun h => hdisjoint hlead h
    exact .inr ⟨hnot, hd.resolve_left hnot⟩
  · exact .inl ⟨hlead, hc.resolve_left hlead⟩

/-- An annotation types what is on its lines or below its comment. The annotation of a declarator is
the type at one place of the text or in the tag of one comment. All declarators with the type at one
place stand on all lines of the place. Of two declarators with the type of one tag, one starts on
the line below the comment, and the comment does not lead it. A declarator that holds an inline
annotation gets its type from the first one that it holds, or else from one that starts before it on
the line on which it starts. -/
theorem annotation_reach (s : Source) (hs : s.root.Distinct) :
    (∀ c : Cursor, s.annotation? c = ((s.supply? c).bind Supply.type?).map .ofText) ∧
    (∀ (c d : Cursor) (o : Occurrence), s.supply? c = some (.inline o) →
      s.supply? d = some (.inline o) →
      Form.inline.at? s.text.toList o.start = some o ∧ s.rowAt o.start ≤ s.rowAt o.stop ∧
        s.OnLines o c.node ∧ s.OnLines o d.node) ∧
    (∀ c ∈ s.root.cursors, ∀ d ∈ s.root.cursors, ∀ m : Node, c ≠ d →
      c.node.kind = .variableDeclarator → d.node.kind = .variableDeclarator →
      s.supply? c = some (.tag m) → s.supply? d = some (.tag m) →
      m ∉ c.leadingComments ∧ m.stop.row + 1 = c.node.start.row ∨
        m ∉ d.leadingComments ∧ m.stop.row + 1 = d.node.start.row) ∧
    ∀ (c : Cursor) (before own after : List Char) (type : String),
      c.node.Covers s.text before own after →
      Form.inline.find? (String.ofList own) = some type →
      ∃ o, s.supply? c = some (.inline o) ∧
        if before.length ≤ o.start then
          o.stop ≤ before.length + own.length ∧ s.annotation? c = some (.ofText type)
        else s.rowAt o.start = c.node.start.row := by
  refine ⟨s.annotation?_eq_supply, fun c d o hc hd => ?_, fun c hc d hd m => ?_, ?_⟩
  · have hc := inlinePlace?_of_supply? hc
    have hd := inlinePlace?_of_supply? hd
    obtain ⟨hstart, hle, hstop⟩ := rowAt_of_inlinePlace? hc
    obtain ⟨hstart', -, hstop'⟩ := rowAt_of_inlinePlace? hd
    exact ⟨at?_of_inlinePlace? hc, hle, ⟨hstart, hstop⟩, hstart', hstop'⟩
  · intro hne hkc hkd hm hm'
    exact above_of_shared_tag hs hc hd hne hkc hkd hm hm'
  · intro c before own after type hcovers hown
    obtain ⟨o, hplace, hearly, hlate⟩ := exists_inlinePlace?_of_covers hcovers hown
    have hsupply := supply?_of_inlinePlace? hplace
    refine ⟨o, hsupply, ?_⟩
    split
    · rename_i hle
      obtain ⟨hstop, htype⟩ := hlate hle
      refine ⟨hstop, ?_⟩
      rw [annotation?_eq_supply, hsupply, Option.bind_some, Supply.type?, htype, Option.map_some]
    · rename_i hlt
      exact hearly (Nat.lt_of_not_le hlt)

/-! ## Statements that share an annotation -/

/-- Two statements on one line, each with an annotation. -/
def sharedLine : Source :=
  .ofOutline "a.js"
    "let a /*: number */ = 1; let b /*: string */ = 'x';"
    [.rule "program" "" 0 51 2, .rule "lexical_declaration" "" 0 24 1,
      .rule "variable_declarator" "" 4 23 3, .rule "identifier" "name" 4 5 0,
      .rule "comment" "" 6 19 0, .rule "number" "value" 22 23 0,
      .rule "lexical_declaration" "" 25 51 1, .rule "variable_declarator" "" 29 50 3,
      .rule "identifier" "name" 29 30 0, .rule "comment" "" 31 44 0,
      .rule "string" "value" 47 50 0]

/-- The declarator of `a`. -/
def sharedLine.first : Cursor := sharedLine.root.cursorAt 2

/-- The declarator of `b`. -/
def sharedLine.second : Cursor := sharedLine.root.cursorAt 7

/-- Two statements on the line below a comment with a type. -/
def sharedComment : Source :=
  .ofOutline "a.js"
    "/** @type \x7bnumber\x7d */\nlet a = 1; let b = 'x';"
    [.rule "program" "" 0 45 3, .rule "comment" "" 0 21 0,
      .rule "lexical_declaration" "" 22 32 1, .rule "variable_declarator" "" 26 31 2,
      .rule "identifier" "name" 26 27 0, .rule "number" "value" 30 31 0,
      .rule "lexical_declaration" "" 33 45 1, .rule "variable_declarator" "" 37 44 2,
      .rule "identifier" "name" 37 38 0, .rule "string" "value" 41 44 0]

/-- The declarator of `a`. -/
def sharedComment.first : Cursor := sharedComment.root.cursorAt 3

/-- The declarator of `b`. -/
def sharedComment.second : Cursor := sharedComment.root.cursorAt 7

theorem exists_tag_of_any {c : Cursor} {i : Nat}
    (h : (s.supply? c).any (Supply.isTagOf i) = true) :
    ∃ m, s.supply? c = some (.tag m) ∧ m.id = i := by
  cases hsupply : s.supply? c with
  | none => rw [hsupply] at h; cases h
  | some a =>
    rw [hsupply] at h
    cases a with
    | inline o => cases h
    | tag m => exact ⟨m, rfl, eq_of_beq h⟩

/-- Two declarators of a sample that have the type of one tag. -/
theorem exists_shared_tag (hs : s.root.Distinct) {i j k : Nat}
    (hi : (s.supply? (s.root.cursorAt i)).any (Supply.isTagOf k) = true)
    (hj : (s.supply? (s.root.cursorAt j)).any (Supply.isTagOf k) = true) :
    ∃ m, s.supply? (s.root.cursorAt i) = some (.tag m) ∧
      s.supply? (s.root.cursorAt j) = some (.tag m) := by
  obtain ⟨m, hm, hid⟩ := exists_tag_of_any hi
  obtain ⟨m', hm', hid'⟩ := exists_tag_of_any hj
  have hmem := candidates_mem_preorder (s.root.cursorAt_mem i) (candidate_of_supply? hm)
  have hmem' := candidates_mem_preorder (s.root.cursorAt_mem j) (candidate_of_supply? hm')
  obtain rfl := List.inj_on_of_nodup_map hs hmem hmem' (hid.trans hid'.symm)
  exact ⟨m, hm, hm'⟩

/-- One annotation may type two statements, also one that holds an annotation of its own. -/
theorem annotations_shared :
    (∃ o, sharedLine.supply? sharedLine.first = some (.inline o) ∧
      sharedLine.supply? sharedLine.second = some (.inline o)) ∧
    sharedLine.first.path.map (·.parent.id) = [1, 0] ∧
    sharedLine.second.path.map (·.parent.id) = [6, 0] ∧
    Form.inline.find? sharedLine.second.node.text = some "string" ∧
    sharedLine.annotation? sharedLine.second = some (.ofText "number") ∧
    (∃ m, sharedComment.supply? sharedComment.first = some (.tag m) ∧
      sharedComment.supply? sharedComment.second = some (.tag m)) ∧
    sharedComment.first.path.map (·.parent.id) = [2, 0] ∧
    sharedComment.second.path.map (·.parent.id) = [6, 0] := by
  refine ⟨⟨⟨6, 19, ["number"]⟩, ?_, ?_⟩, by decide +kernel, by decide +kernel, by decide +kernel,
    by decide +kernel, exists_shared_tag (k := 1) ?_ ?_ ?_, by decide +kernel, by decide +kernel⟩
  · exact supply?_of_inlinePlace? (by decide +kernel)
  · exact supply?_of_inlinePlace? (by decide +kernel)
  · decide +kernel
  · decide +kernel
  · decide +kernel

theorem shared_annotations_reach :
    (sharedLine.root.Distinct ∧
      ∃ o, sharedLine.supply? sharedLine.first = some (.inline o) ∧
        sharedLine.supply? sharedLine.second = some (.inline o) ∧
        sharedLine.OnLines o sharedLine.first.node ∧
        sharedLine.OnLines o sharedLine.second.node) ∧
    (sharedComment.root.Distinct ∧ sharedComment.first ≠ sharedComment.second ∧
      ∃ m, sharedComment.supply? sharedComment.first = some (.tag m) ∧
        sharedComment.supply? sharedComment.second = some (.tag m) ∧
        (m.stop.row + 1 = sharedComment.first.node.start.row ∨
          m.stop.row + 1 = sharedComment.second.node.start.row)) ∧
    (∃ before own after, sharedLine.first.node.Covers sharedLine.text before own after ∧
      Form.inline.find? (String.ofList own) = some "number" ∧
      sharedLine.annotation? sharedLine.first = some (.ofText "number")) ∧
    ∃ before own after, sharedLine.second.node.Covers sharedLine.text before own after ∧
      Form.inline.find? (String.ofList own) = some "string" ∧
      ∃ o, sharedLine.supply? sharedLine.second = some (.inline o) ∧
        o.start < before.length ∧
        sharedLine.rowAt o.start = sharedLine.second.node.start.row := by
  have hline : sharedLine.root.Distinct := by decide +kernel
  have hcomment : sharedComment.root.Distinct := by decide +kernel
  have hfirst : sharedLine.supply? sharedLine.first =
      some (.inline ⟨6, 19, ["number"]⟩) := supply?_of_inlinePlace? (by decide +kernel)
  have hsecond : sharedLine.supply? sharedLine.second =
      some (.inline ⟨6, 19, ["number"]⟩) := supply?_of_inlinePlace? (by decide +kernel)
  have hne : sharedComment.first ≠ sharedComment.second := fun h => by
    have hid : sharedComment.first.node.id ≠ sharedComment.second.node.id := by
      decide +kernel
    exact hid (congrArg (·.node.id) h)
  obtain ⟨m, hm, hm'⟩ : ∃ m, sharedComment.supply? sharedComment.first = some (.tag m) ∧
      sharedComment.supply? sharedComment.second = some (.tag m) :=
    exists_shared_tag (k := 1) hcomment (by decide +kernel) (by decide +kernel)
  have hcovers : sharedLine.first.node.Covers sharedLine.text
      "let ".toList "a /*: number */ = 1".toList "; let b /*: string */ = 'x';".toList :=
    ⟨by decide +kernel, by decide +kernel, by decide +kernel⟩
  have hcovers' : sharedLine.second.node.Covers sharedLine.text
      "let a /*: number */ = 1; let ".toList "b /*: string */ = 'x'".toList [';'] :=
    ⟨by decide +kernel, by decide +kernel, by decide +kernel⟩
  obtain ⟨-, hlines, -, hown⟩ := annotation_reach sharedLine hline
  obtain ⟨-, -, htags, -⟩ := annotation_reach sharedComment hcomment
  refine ⟨⟨hline, _, hfirst, hsecond, (hlines _ _ _ hfirst hsecond).2.2⟩,
    ⟨hcomment, hne, m, hm, hm', ?_⟩, ⟨_, _, _, hcovers, by decide +kernel, ?_⟩,
    _, _, _, hcovers', by decide +kernel, _, hsecond, by decide +kernel, ?_⟩
  · have habove := htags _ (Node.cursorAt_mem _ _) _ (Node.cursorAt_mem _ _) m hne
      (by decide +kernel) (by decide +kernel) hm hm'
    exact habove.imp And.right And.right
  · obtain ⟨o, ho, hif⟩ := hown _ _ _ _ "number" hcovers (by decide +kernel)
    cases hfirst.symm.trans ho
    rw [if_pos (by decide +kernel)] at hif
    exact hif.2
  · obtain ⟨o, ho, hif⟩ := hown _ _ _ _ "string" hcovers' (by decide +kernel)
    cases hsecond.symm.trans ho
    rwa [if_neg (by decide +kernel)] at hif

end Source

end CommentTypes
