import CommentTypes.Proofs.Check.Visit
import CommentTypes.Proofs.Source.Column
import CommentTypes.Proofs.Tree.Below

/-!
# Reports in source order

The walk comes to the nodes of a file in source order, and a declaration or an assignment is
reported where it starts (`place_of_mem_reportsAt`). So these reports are in source order, whatever
is reported in between.

An argument is reported where it starts itself, which may be after the next declaration. But the
reports of one call are those of some of its arguments, in the order of the arguments
(`exists_passed_of_call`), and these follow one another in the text (`arguments_starts`).
-/

namespace CommentTypes

/-- The arguments of a call start one after the other. -/
theorem Node.arguments_starts {root n : Node} (h : root.Ordered) (hn : n ∈ root.preorder) :
    n.arguments.Pairwise fun a b => a.start.byte ≤ b.start.byte := by
  unfold arguments
  cases ha : n.child? .arguments with
  | none => exact .nil
  | some list =>
    have hlist := mem_preorder_of_child? hn ha
    refine ((h list hlist).apart.imp_of_mem fun {a b} hma _ hab => ?_).filter _
    exact Nat.le_trans (h a (mem_preorder_of_mem_children hlist hma)).span hab

namespace Check

/-- What is reported when a node is reached in a state. -/
def reportsAt (ctx : Context) (v : State × Cursor) : List Diagnostic :=
  (step ctx v.1 v.2).diagnostics.drop v.1.diagnostics.length

theorem reportsAt_eq (ctx : Context) (v : State × Cursor) :
    reportsAt ctx v = (visit ctx v.1.bindings v.2).reports ctx v.1.bindings v.2.node := by
  rw [reportsAt, (step_effect ctx v.1 v.2).diagnostics, List.drop_left]

/-- The reports of a walk are those made at its nodes, one after the other. -/
theorem walk_reportsAt (ctx : Context) (cs : List Cursor) :
    (walk ctx {} cs).diagnostics = (visits ctx {} cs).flatMap (reportsAt ctx) := by
  rw [walk_diagnostics, List.nil_append, funext (reportsAt_eq ctx)]

variable {ctx : Context} {v : State × Cursor}

theorem mem_of_mem_visits {start : State} {cs : List Cursor} (h : v ∈ visits ctx start cs) :
    v.2 ∈ cs := by
  rw [← map_snd_visits ctx start cs]
  exact List.mem_map_of_mem h

/-- Arguments are reported at calls, and nothing else is. Only they are reported at a place other
than that of the node. -/
theorem place_of_mem_reportsAt {d : Diagnostic} (h : d ∈ reportsAt ctx v) :
    (d.site = .argument ↔ v.2.node.kind = .call) ∧
      (d.site ≠ .argument → d.location = locationOf ctx.source v.2.node) := by
  have ht := visit_taken ctx v.1.bindings v.2
  rw [reportsAt_eq] at h
  have hfinds := Visit.finds_of_mem_reports h
  generalize visit ctx v.1.bindings v.2 = w at ht hfinds
  cases hfinds with
  | declaration => exact ⟨by simp [mismatch, ht.1], fun _ => rfl⟩
  | assignment =>
    obtain ⟨-, hkind, -⟩ := ht
    refine ⟨?_, fun _ => rfl⟩
    rcases hkind with hkind | hkind <;> simp [mismatch, hkind]
  | argument => exact ⟨by simp [mismatch, ht.1], fun hsite => absurd rfl hsite⟩

theorem exists_sublist_of_filterMap {α β γ : Type} {report : α → Option β} {place : β → γ}
    {start : α → γ} (h : ∀ a b, report a = some b → place b = start a) (as : List α) :
    ∃ reported : List α, reported.Sublist as ∧
      (as.filterMap report).map place = reported.map start := by
  induction as with
  | nil => exact ⟨[], .slnil, rfl⟩
  | cons a as ih =>
    obtain ⟨reported, hsub, hplaces⟩ := ih
    cases hr : report a with
    | none => exact ⟨reported, hsub.cons a, by rw [List.filterMap_cons_none hr, hplaces]⟩
    | some b =>
      refine ⟨a :: reported, hsub.cons_cons a, ?_⟩
      rw [List.filterMap_cons_some hr, List.map_cons, List.map_cons, hplaces, h a b hr]

theorem location_of_argumentReport? {known : Tracker} {p : (String × TypeName) × Node}
    {d : Diagnostic} (h : argumentReport? ctx known p = some d) :
    d.location = locationOf ctx.source p.2 := by
  simp only [argumentReport?] at h
  split at h
  · cases h
  · cases h
    rfl

/-- The reports of a call lie at some of its arguments, in their order. -/
theorem exists_passed_of_call (ctx : Context) (h : v.2.node.kind = .call) :
    ∃ passed : List Node, passed.Sublist v.2.node.arguments ∧
      (reportsAt ctx v).map (·.location) = passed.map (locationOf ctx.source) := by
  have ht := visit_taken ctx v.1.bindings v.2
  rw [reportsAt_eq]
  generalize visit ctx v.1.bindings v.2 = w at ht
  cases w with
  | pass | unannotated => exact ⟨[], List.nil_sublist _, rfl⟩
  | annotated =>
    rw [Visit.Taken, h] at ht
    cases ht.1
  | assignment =>
    obtain ⟨-, hkind, -⟩ := ht
    rw [h] at hkind
    simp at hkind
  | call f arguments =>
    obtain ⟨-, -, -, rfl⟩ := ht
    have hplace : ∀ p d, argumentReport? ctx v.1.bindings p = some d →
        d.location = locationOf ctx.source p.2 := fun _ _ => location_of_argumentReport?
    obtain ⟨pairs, hpairs, hplaces⟩ :=
      exists_sublist_of_filterMap hplace (f.params.zip v.2.node.arguments)
    refine ⟨pairs.map Prod.snd, (hpairs.map Prod.snd).trans ?_, ?_⟩
    · -- arguments without a parameter are not compared
      rw [List.zip_eq_zip_take_min, List.map_snd_zip (by simp)]
      exact List.take_sublist ..
    · rw [List.map_map]
      exact hplaces

section Files

variable {s : Source} (hs : s.root.Ordered) (hstarts : ∀ n ∈ s.root.preorder, n.StartsIn s.text)
include hs hstarts

/-- The reports of a call of a file come in source order. -/
theorem call_reports_upTo (hc : v.2.node ∈ s.root.preorder) (hsource : ctx.source = s)
    (h : v.2.node.kind = .call) :
    (reportsAt ctx v).Pairwise fun d e => d.location.UpTo e.location := by
  obtain ⟨passed, hpassed, hplaces⟩ := exists_passed_of_call ctx h
  have hmem : ∀ n ∈ passed, n ∈ s.root.preorder := fun n hn =>
    Node.mem_preorder_of_mem_arguments hc (hpassed.subset hn)
  have hupTo : passed.Pairwise fun m n => (locationOf s m).UpTo (locationOf s n) :=
    ((Node.arguments_starts hs hc).sublist hpassed).imp_of_mem fun {m n} hm hn hle =>
      locationOf_upTo (hstarts m (hmem m hm)) (hstarts n (hmem n hn)) hle
  rw [← List.pairwise_map (f := Diagnostic.location), hplaces, hsource, List.pairwise_map]
  exact hupTo

/-- Declarations and assignments of a file are reported in source order. -/
theorem walk_reports_upTo (hsource : ctx.source = s) :
    ((walk ctx {} s.root.cursors).diagnostics.filter (·.site ≠ .argument)).Pairwise
      fun d e => d.location.UpTo e.location := by
  have hcursors : (visits ctx {} s.root.cursors).Pairwise fun v w =>
      v.2.node.start.byte ≤ w.2.node.start.byte := by
    have hpre := Node.preorder_starts hs
    rw [← map_node_cursors, ← map_snd_visits ctx {} s.root.cursors, List.pairwise_map,
      List.pairwise_map] at hpre
    exact hpre
  have hstarts' : ∀ v ∈ visits ctx {} s.root.cursors, v.2.node.StartsIn s.text := fun v hv =>
    hstarts _ (Node.cursors_within (mem_of_mem_visits hv)).node
  have hupTo : ∀ v ∈ visits ctx {} s.root.cursors, ∀ w ∈ visits ctx {} s.root.cursors,
      v.2.node.start.byte ≤ w.2.node.start.byte → ∀ d ∈ reportsAt ctx v, ∀ e ∈ reportsAt ctx w,
      d.site ≠ .argument → e.site ≠ .argument → d.location.UpTo e.location := by
    intro v hv w hw hle d hd e he hsd hse
    rw [(place_of_mem_reportsAt hd).2 hsd, (place_of_mem_reportsAt he).2 hse, hsource]
    exact locationOf_upTo (hstarts' v hv) (hstarts' w hw) hle
  rw [walk_reportsAt, List.pairwise_filter, List.pairwise_flatMap]
  simp only [ne_eq, decide_eq_true_eq]
  refine ⟨fun v hv => ?_, hcursors.imp_of_mem fun {v w} hv hw hle => hupTo v hv w hw hle⟩
  exact (List.pairwise_of_forall (R := fun _ _ => True) fun _ _ => trivial).imp_of_mem
    fun {d e} hd he _ => hupTo v hv v hv (Nat.le_refl _) d hd e he

end Files

/-- Reports come in source order. In a file whose tree is in source order, the declarations and
assignments that are reported are listed by lines and columns. The reports of a file are those made
at its nodes, one after the other. Arguments are reported at calls only, and nothing else is
reported there. The reports of one call lie at some of its arguments, in the order of the arguments,
and are listed by lines and columns. -/
theorem reports_in_source_order (infer : Bool) (s : Source) (hs : s.root.Ordered)
    (hstarts : ∀ n ∈ s.root.preorder, n.StartsIn s.text) :
    ((source infer s).value.result.diagnostics.filter (·.site ≠ .argument)).Pairwise
      (fun d e => d.location.UpTo e.location) ∧
    ((Directives.ofSource s).skipped = false →
      (source infer s).value.result.diagnostics =
        (visits (fileContext infer s) {} s.root.cursors).flatMap
          (reportsAt (fileContext infer s))) ∧
    ∀ v ∈ visits (fileContext infer s) {} s.root.cursors,
      (∀ d ∈ reportsAt (fileContext infer s) v,
        d.site = .argument ↔ v.2.node.kind = .call) ∧
      (v.2.node.kind = .call →
        (reportsAt (fileContext infer s) v).Pairwise
          (fun d e => d.location.UpTo e.location) ∧
        ∃ passed : List Node, passed.Sublist v.2.node.arguments ∧
          (reportsAt (fileContext infer s) v).map (·.location) = passed.map (locationOf s)) := by
  refine ⟨?_, fun hskip => ?_, fun v hv => ⟨fun d hd => (place_of_mem_reportsAt hd).1, ?_⟩⟩
  · cases hskip : (Directives.ofSource s).skipped with
    | true =>
      rw [source_of_skipped hskip]
      exact .nil
    | false =>
      rw [source_of_not_skipped hskip]
      exact walk_reports_upTo hs hstarts rfl
  · rw [source_of_not_skipped hskip]
    exact walk_reportsAt ..
  · intro hcall
    have hc := (Node.cursors_within (mem_of_mem_visits hv)).node
    exact ⟨call_reports_upTo hs hstarts hc rfl hcall, exists_passed_of_call _ hcall⟩

/-- A declaration behind a character of two bytes, and on the same line an assignment and a call,
all of them reported. -/
def crowdedLine : Source :=
  .ofOutline "a.js"
    ("/** @param \x7bstring\x7d a @param \x7bstring\x7d b */\nfunction f(a, b) \x7b\x7d\n" ++
      "/*é*/ let n /*: number */ = 'x'; n = f(1, true);")
    [.rule "program" "" 0 112 5, .rule "comment" "" 0 42 0,
      .rule "function_declaration" "" 43 62 1, .rule "identifier" "name" 52 53 0,
      .rule "comment" "" 63 69 0, .rule "lexical_declaration" "" 70 96 1,
      .rule "variable_declarator" "" 74 95 3, .rule "identifier" "name" 74 75 0,
      .rule "comment" "" 76 89 0, .rule "string" "value" 92 95 0,
      .rule "expression_statement" "" 97 112 1, .rule "assignment_expression" "" 97 111 2,
      .rule "identifier" "left" 97 98 0, .rule "call_expression" "right" 101 111 2,
      .rule "identifier" "function" 101 102 0, .rule "arguments" "arguments" 102 111 2,
      .rule "number" "" 103 104 0, .rule "true" "" 106 110 0]

theorem crowdedLine_in_source_order :
    let ctx := fileContext false crowdedLine
    let reports := (source false crowdedLine).value.result.diagnostics
    (crowdedLine.root.Ordered ∧ ∀ n ∈ crowdedLine.root.preorder, n.StartsIn crowdedLine.text) ∧
    (Directives.ofSource crowdedLine).skipped = false ∧
    reports.map (fun d => (d.site, d.location)) =
      [(.declaration, ⟨"a.js", 3, 11⟩), (.assignment, ⟨"a.js", 3, 34⟩),
        (.argument, ⟨"a.js", 3, 40⟩), (.argument, ⟨"a.js", 3, 43⟩)] ∧
    (reports.filter (·.site ≠ .argument)).Pairwise (fun d e => d.location.UpTo e.location) ∧
    reports = (visits ctx {} crowdedLine.root.cursors).flatMap (reportsAt ctx) ∧
    ∃ v ∈ visits ctx {} crowdedLine.root.cursors, v.2.node.kind = .call ∧
      (reportsAt ctx v).Pairwise (fun d e => d.location.UpTo e.location) ∧
      ∃ passed : List Node, passed.Sublist v.2.node.arguments ∧
        (reportsAt ctx v).map (·.location) = passed.map (locationOf crowdedLine) := by
  intro ctx reports
  have hs : crowdedLine.root.Ordered := by decide +kernel
  have hstarts : ∀ n ∈ crowdedLine.root.preorder, n.StartsIn crowdedLine.text := by
    decide +kernel
  have hskip : (Directives.ofSource crowdedLine).skipped = false := by decide +kernel
  have hcall : ((visits ctx {} crowdedLine.root.cursors).any fun v =>
      decide (v.2.node.kind = .call)) = true := by decide +kernel
  obtain ⟨v, hv, hkind⟩ := List.any_eq_true.mp hcall
  obtain ⟨hsites, hnodes, hcalls⟩ := reports_in_source_order false crowdedLine hs hstarts
  exact ⟨⟨hs, hstarts⟩, hskip, by decide +kernel, hsites, hnodes hskip, v, hv,
    of_decide_eq_true hkind, (hcalls v hv).2 (of_decide_eq_true hkind)⟩

end Check

end CommentTypes
