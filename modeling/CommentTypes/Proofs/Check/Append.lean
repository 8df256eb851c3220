import CommentTypes.Proofs.Check.Alike
import CommentTypes.Proofs.Check.Cutoff
import CommentTypes.Proofs.Source.Position
import CommentTypes.Proofs.Tree.Extend

/-!
# Code appended to a file

A file may be extended by lines at its end and by nodes on these lines (`Source.Extends`). The
nodes that were there before keep their lines (`spanText_eq`), their columns (`column_eq`) and the
comments before them (`candidates_eq`), and a mark on the new lines cuts none of them off
(`cutsOff_eq`). New code can change nothing for them but the signatures of the functions that they
call. Where it does not, the walk over the longer file begins as the walk over the shorter one
(`walk_of_extends`).
-/

namespace CommentTypes

/-- What a parser promises of the tree of a whole program. -/
structure Source.Parsed (s : Source) : Prop where
  wellFormed : s.WellFormed
  program : s.root.kind = .other "program"
  stops : ∀ n ∈ s.root.preorder, n.stop.row = lineFeeds s.text n.stop.byte

instance (s : Source) : Decidable s.Parsed :=
  decidable_of_iff (s.WellFormed ∧ s.root.kind = .other "program" ∧
      ∀ n ∈ s.root.preorder, n.stop.row = lineFeeds s.text n.stop.byte)
    ⟨fun h => ⟨h.1, h.2.1, h.2.2⟩, fun h => ⟨h.wellFormed, h.program, h.stops⟩⟩

/-- A file goes on where another one ends: with more lines, and with more nodes on these lines. -/
structure Source.Extends (s' s : Source) : Prop where
  lines : s.lines <+: s'.lines
  children : ∃ added, s'.root.children = s.root.children ++ added ∧
    ∀ n ∈ added, s.lines.length ≤ n.start.row

namespace Source

variable {s s' : Source}

/-! ## Rows -/

theorem Parsed.start_row_lt (h : s.Parsed) {n : Node} (hn : n ∈ s.root.preorder) :
    n.start.row < s.lines.length := by
  rw [h.wellFormed.placed n hn, s.lines_eq]
  exact lineFeeds_lt_length_lines ..

theorem Parsed.stop_row_lt (h : s.Parsed) {n : Node} (hn : n ∈ s.root.preorder) :
    n.stop.row < s.lines.length := by
  rw [h.stops n hn, s.lines_eq]
  exact lineFeeds_lt_length_lines ..

theorem Parsed.start_row_le_stop_row (h : s.Parsed) {n : Node} (hn : n ∈ s.root.preorder) :
    n.start.row ≤ n.stop.row := by
  rw [h.wellFormed.placed n hn, h.stops n hn]
  exact lineFeeds_mono _ (h.wellFormed.ordered n hn).span

/-- What hangs below a node starts no earlier, in rows. -/
theorem Parsed.row_le_of_mem_unroll (h : s.Parsed) {added : List Node}
    (hadded : ∀ n ∈ unroll Node.children Node.size Node.total_size_children_lt added,
      n ∈ s.root.preorder) {row : Nat} (hrow : ∀ n ∈ added, row ≤ n.start.row) :
    ∀ n ∈ unroll Node.children Node.size Node.total_size_children_lt added,
      row ≤ n.start.row := by
  refine forall_mem_unroll (P := fun n : Node => row ≤ n.start.row) (fun n hn hle m hm => ?_) hrow
  have hn' := hadded n hn
  refine Nat.le_trans hle ?_
  rw [h.wellFormed.placed n hn',
    h.wellFormed.placed m (Node.mem_preorder_of_mem_children hn' hm)]
  exact lineFeeds_mono _ ((h.wellFormed.ordered n hn').within m hm).1

/-! ## Lines and columns -/

theorem clampIndex_of_le {length index : Nat} (h : index ≤ length) :
    clampIndex length index = index := by
  unfold clampIndex
  rw [if_neg (by omega)]
  omega

/-- The lines of a node are the same in a longer file. -/
theorem spanText_eq (h : s.lines <+: s'.lines) {n : Node} (hstart : n.start.row < s.lines.length)
    (hstop : n.stop.row < s.lines.length) : s'.spanText n = s.spanText n := by
  obtain ⟨more, hmore⟩ := h
  have hlast : ∀ l, s.lines.length ≤ l → clampIndex l (n.stop.row + 1) = n.stop.row + 1 :=
    fun l hl => clampIndex_of_le (by omega : n.stop.row + 1 ≤ l)
  have hfirst : ∀ l, s.lines.length ≤ l → clampIndex l (n.start.row + 1 - 1) = n.start.row :=
    fun l hl => by rw [Int.add_sub_cancel]; exact clampIndex_of_le (by omega)
  have hlength : s.lines.length ≤ s'.lines.length := by
    rw [← hmore, List.length_append]
    omega
  simp only [spanText, lineSpan]
  rw [hlast _ hlength, hlast _ (Nat.le_refl _), hfirst _ hlength, hfirst _ (Nat.le_refl _), ← hmore,
    List.take_append_of_le_length hstop]

/-- The column of a node is the same in a longer file. -/
theorem column_eq (h : s.lines <+: s'.lines) {n : Node} (hstart : n.start.row < s.lines.length) :
    s'.column n = s.column n := by
  obtain ⟨more, hmore⟩ := h
  have hbytes : s'.byteLines = s.byteLines ++ more.map fun l => Text.Utf8.encode l.toList := by
    rw [s.byteLines_eq, s'.byteLines_eq, CommentTypes.byteLines_eq, CommentTypes.byteLines_eq,
      ← s.lines_eq, ← s'.lines_eq, ← hmore, List.map_append]
  have hrow : n.start.row < s.byteLines.length := by
    rwa [s.byteLines_eq, CommentTypes.byteLines_eq, List.length_map, ← s.lines_eq]
  rw [column, column, charColumn, charColumn, hbytes, List.getElem?_append_left hrow]

/-- A mark on the new lines comes too late for the nodes before them. -/
theorem cutsOff_eq (h : s.lines <+: s'.lines) {n : Node} (hstart : n.start.row < s.lines.length) :
    (Directives.ofSource s').cutsOff n.line = (Directives.ofSource s).cutsOff n.line := by
  obtain ⟨more, hmore⟩ := h
  simp only [Directives.cutsOff, Directives.ofSource, Directives.cutoffLine?, ← hmore,
    List.findIdx?_append]
  cases s.lines.findIdx? fun line => occursIn skipRemainingMark line.toList with
  | some i => rfl
  | none =>
    cases more.findIdx? fun line => occursIn skipRemainingMark line.toList with
    | none => rfl
    | some j =>
      have hlate : ¬ Int.ofNat (j + s.lines.length + 1) < (n.line : Int) := by
        rw [Node.line, Int.ofNat_eq_natCast]
        omega
      exact decide_eq_false hlate

/-! ## Comments -/

theorem docsAbove_eq_nil {n : Node} {comments : List Node}
    (h : ∀ m ∈ comments, m.isDocAbove n = false) (seen : List (Nat × Nat)) :
    docsAbove n seen comments = [] := by
  induction comments with
  | nil => rfl
  | cons m comments ih =>
    obtain ⟨hm, hrest⟩ := List.forall_mem_cons.mp h
    rw [docsAbove, hm, Bool.and_false, if_neg Bool.false_ne_true]
    exact ih hrest

theorem docsAbove_append {n : Node} {extra : List Node}
    (h : ∀ m ∈ extra, m.isDocAbove n = false) (seen : List (Nat × Nat)) (comments : List Node) :
    docsAbove n seen (comments ++ extra) = docsAbove n seen comments := by
  induction comments generalizing seen with
  | nil => exact docsAbove_eq_nil h seen
  | cons comment comments ih => rw [List.cons_append, docsAbove, docsAbove, ih, ih]

/-- The new comments of a longer file come last, and end on its new lines. -/
theorem comments_eq_append (hs : s.Parsed) (hs' : s'.Parsed) (h : s'.Extends s) :
    ∃ extra, s'.comments = s.comments ++ extra ∧ ∀ m ∈ extra, s.lines.length ≤ m.stop.row := by
  obtain ⟨added, hchildren, hrows⟩ := h.children
  have hroot : ∀ {t : Source}, t.Parsed → t.root.isComment = false := fun ht => by
    rw [Node.isComment, ht.program]
    rfl
  have hmem : ∀ n ∈ unroll Node.children Node.size Node.total_size_children_lt added,
      n ∈ s'.root.preorder := fun n hn => by
    rw [Node.preorder_of_children_append hchildren]
    exact List.mem_cons_of_mem _ (List.mem_append_right _ hn)
  have hcomments := Node.comments_of_children_append hchildren (hroot hs) (hroot hs')
  rw [← s.comments_eq, ← s'.comments_eq] at hcomments
  refine ⟨_, hcomments, fun m hm => ?_⟩
  obtain ⟨hm, -⟩ := List.mem_filter.mp hm
  exact Nat.le_trans (hs'.row_le_of_mem_unroll hmem hrows m hm)
    (hs'.start_row_le_stop_row (hmem m hm))

/-- The comments that may hold a type tag for a node are the same in a longer file. -/
theorem candidates_eq (hs : s.Parsed) (hs' : s'.Parsed) (h : s'.Extends s) {c : Cursor}
    (hc : c ∈ s.root.cursors) : s'.candidates (c.rebase s'.root) = s.candidates c := by
  obtain ⟨extra, hcomments, hrows⟩ := comments_eq_append hs hs' h
  have hbelow : ∀ m ∈ extra, m.isDocAbove c.node = false := by
    intro m hm
    have hnode := hs.start_row_lt (Node.cursors_within hc).node
    have hrow := hrows m hm
    have hne : (m.stop.row + 1 == c.node.start.row) = false := beq_false_of_ne (by omega)
    rw [Node.isDocAbove, hne]
    rfl
  rw [candidates, candidates, leadingComments_rebase, hcomments]
  exact congrArg _ (docsAbove_append hbelow _ _)

theorem annotation?_eq (hs : s.Parsed) (hs' : s'.Parsed) (h : s'.Extends s) {c : Cursor}
    (hc : c ∈ s.root.cursors) : s'.annotation? (c.rebase s'.root) = s.annotation? c := by
  have hn := (Node.cursors_within hc).node
  have hspan : s'.spanText c.node = s.spanText c.node :=
    spanText_eq h.lines (hs.start_row_lt hn) (hs.stop_row_lt hn)
  rw [annotation?, annotation?, tagType?, tagType?, candidates_eq hs hs' h hc, inlineType?,
    inlineType?]
  rw [show (c.rebase s'.root).node = c.node from rfl, hspan]

end Source

namespace Check

/-! ## Walks -/

/-- The reports on a file name the file. -/
theorem fileState_inFile (infer : Bool) (s : Source) :
    (fileState infer s).diagnostics.map (·.inFile s.path) = (fileState infer s).diagnostics := by
  have hself : (fileState infer s).Mirrors s.path
      (walk (fileContext infer s) {} (s.root.cursors.map id)) :=
    (Context.Alike.refl (fileContext infer s) s.root).walk_mirrors
      (fun _ hc => (Node.cursors_within hc).node) (fun _ _ => rfl) fun _ _ => rfl
  rw [List.map_id] at hself
  exact hself.diagnostics.symm

/-- The walk over a longer file begins as the walk over the shorter one. -/
theorem walk_of_extends (infer : Bool) {s s' : Source} (hs : s.Parsed) (hs' : s'.Parsed)
    (h : s'.Extends s)
    (hcalled : ∀ name ∈ s.root.calledNames,
      (Registry.ofTree s'.root).find? name = (Registry.ofTree s.root).find? name) :
    ∃ cs, cs <+: s'.root.cursors ∧
      (fileState infer s).Mirrors s'.path (walk (fileContext infer s') {} cs) := by
  have halike : (fileContext infer s).Alike (fileContext infer s') s.root :=
    { infer := rfl
      cutsOff := fun n hn => Source.cutsOff_eq h.lines (hs.start_row_lt hn)
      column := fun n hn => Source.column_eq h.lines (hs.start_row_lt hn)
      signature := hcalled }
  obtain ⟨added, hchildren, -⟩ := h.children
  obtain ⟨more, hmore⟩ := Node.cursors_of_children_append hchildren
  refine ⟨⟨s'.root, []⟩ :: s.root.cursors.tail.map (Cursor.rebase s'.root),
    ⟨more, hmore.symm⟩, ?_⟩
  have hroot : s.root.cursors = ⟨s.root, []⟩ :: s.root.cursors.tail := by
    rw [Node.cursors_eq, List.tail_cons]
  -- the roots differ, but there is nothing to check about a program as a whole
  rw [fileState, hroot, walk_cons, walk_cons, step_of_other hs.program,
    step_of_other hs'.program]
  exact halike.walk_mirrors (fun c hc => (Node.cursors_within (List.mem_of_mem_tail hc)).node)
    (fun _ _ => rfl) fun c hc => Source.annotation?_eq hs hs' h (List.mem_of_mem_tail hc)

/-- Appending code never changes what was reported before it. Let a file go on where another one
ends, with the same signatures for the functions that are called in the shorter one, and let
neither be skipped. Then the reports on the longer file begin with those on the shorter one, and no
fewer comparisons are made in it, wherever its first mark that ends checking is. -/
theorem appending_keeps_reports (infer : Bool) (s s' : Source) (hs : s.Parsed) (hs' : s'.Parsed)
    (h : s'.Extends s) (hskip : (Directives.ofSource s).skipped = false)
    (hskip' : (Directives.ofSource s').skipped = false)
    (hcalled : ∀ name ∈ s.root.calledNames,
      (Registry.ofTree s'.root).find? name = (Registry.ofTree s.root).find? name) :
    (source infer s).value.result.diagnostics.map (·.inFile s'.path) <+:
      (source infer s').value.result.diagnostics ∧
    (s'.path = s.path → (source infer s).value.result.diagnostics <+:
      (source infer s').value.result.diagnostics) ∧
    (source infer s).value.result.checks ≤ (source infer s').value.result.checks := by
  obtain ⟨cs, hcs, hmirrors⟩ := walk_of_extends infer hs hs' h hcalled
  obtain ⟨hdiagnostics, hchecks⟩ := walk_prefix (fileContext infer s') {} hcs
  rw [hmirrors.diagnostics] at hdiagnostics
  rw [hmirrors.checks] at hchecks
  rw [source_of_not_skipped hskip, source_of_not_skipped hskip']
  refine ⟨hdiagnostics, fun hpath => ?_, hchecks⟩
  rw [hpath, fileState_inFile] at hdiagnostics
  exact hdiagnostics

/-- A call that fails, and after it a declaration that fails, a mark and a call that is cut off. -/
def callAndMore : Source :=
  .ofOutline "a.js"
    "/** @param \x7bstring\x7d a */\nfunction f(a) \x7b\x7d\nf(1);\nlet n /*: number */ = 'x'; /*: skip-remaining */\nf(2);"
    [.rule "program" "" 0 102 6, .rule "comment" "" 0 24 0,
      .rule "function_declaration" "" 25 41 1, .rule "identifier" "name" 34 35 0,
      .rule "expression_statement" "" 42 47 1, .rule "call_expression" "" 42 46 2,
      .rule "identifier" "function" 42 43 0, .rule "arguments" "arguments" 43 46 1,
      .rule "number" "" 44 45 0, .rule "lexical_declaration" "" 48 74 1,
      .rule "variable_declarator" "" 52 73 3, .rule "identifier" "name" 52 53 0,
      .rule "comment" "" 54 67 0, .rule "string" "value" 70 73 0, .rule "comment" "" 75 96 0,
      .rule "expression_statement" "" 97 102 1, .rule "call_expression" "" 97 101 2,
      .rule "identifier" "function" 97 98 0, .rule "arguments" "arguments" 98 101 1,
      .rule "number" "" 99 100 0]

/-- The file up to the first call. -/
def callOnly : Source :=
  let text := "/** @param \x7bstring\x7d a */\nfunction f(a) \x7b\x7d\nf(1);"
  .ofTree "a.js" text
    (.node { callAndMore.root.label with stop := ⟨47, 2, 5⟩, text }
      (callAndMore.root.children.take 3))

theorem callOnly_reports_kept :
    (callOnly.Parsed ∧ callAndMore.Parsed ∧ callAndMore.Extends callOnly ∧
      (Directives.ofSource callOnly).skipped = false ∧
      (Directives.ofSource callAndMore).skipped = false ∧
      ∀ name ∈ callOnly.root.calledNames, (Registry.ofTree callAndMore.root).find? name =
        (Registry.ofTree callOnly.root).find? name) ∧
    (Directives.ofSource callOnly).cutoff = none ∧
    (Directives.ofSource callAndMore).cutoff = some 4 ∧
    (source false callOnly).value.result.checks = 1 ∧
    (source false callOnly).value.result.diagnostics <+:
      (source false callAndMore).value.result.diagnostics ∧
    (source false callOnly).value.result.checks ≤
      (source false callAndMore).value.result.checks := by
  have hshort : callOnly.Parsed := by decide +kernel
  have hlong : callAndMore.Parsed := by decide +kernel
  have hextends : callAndMore.Extends callOnly :=
    { lines := by decide +kernel
      children := ⟨callAndMore.root.children.drop 3, (List.take_append_drop ..).symm,
        by decide +kernel⟩ }
  have hskip : (Directives.ofSource callOnly).skipped = false := by decide +kernel
  have hskip' : (Directives.ofSource callAndMore).skipped = false := by decide +kernel
  have hcalled : ∀ name ∈ callOnly.root.calledNames, (Registry.ofTree callAndMore.root).find? name =
      (Registry.ofTree callOnly.root).find? name := by decide +kernel
  obtain ⟨-, hkept, hchecks⟩ :=
    appending_keeps_reports false _ _ hshort hlong hextends hskip hskip' hcalled
  exact ⟨⟨hshort, hlong, hextends, hskip, hskip', hcalled⟩, by decide +kernel, by decide +kernel,
    by decide +kernel, hkept rfl, hchecks⟩

end Check

end CommentTypes
