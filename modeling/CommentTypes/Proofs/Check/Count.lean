import CommentTypes.Proofs.Check.Compatible
import CommentTypes.Run.Basic

/-!
# What is counted, and what is reported at most

Three kinds of sites are compared: declarators with an annotation (`annotates`), assignments to
variables that are tracked when the walk reaches them (`assigns`), and calls of functions with
tagged parameters (`calledSignature?`). A declarator and an assignment count once, a call as often
as the function has parameters (`visit_checks`), and none reports more mismatches than it counts
(`length_reports_le`).
-/

namespace CommentTypes.Check

/-- A declarator with a name, a value and an annotation, not cut off. -/
def annotates (ctx : Context) (c : Cursor) : Bool :=
  c.node.kind = .variableDeclarator && c.node.boundName?.isSome &&
    (c.node.child? .value).isSome && (ctx.source.annotation? c).isSome &&
    !ctx.directives.cutsOff c.node.line

/-- An assignment to a variable that is tracked, not cut off. -/
def assigns (ctx : Context) (known : Tracker) (c : Cursor) : Bool :=
  (c.node.kind = .assignment || c.node.kind = .compoundAssignment) &&
    c.node.targetName?.any known.contains && !ctx.directives.cutsOff c.node.line

/-- The signature that a call is compared with, if it has parameters and the call is not cut off. -/
def calledSignature? (ctx : Context) (c : Cursor) : Option Signature :=
  if c.node.kind = .call && !ctx.directives.cutsOff c.node.line then
    (c.node.callee?.bind ctx.signatures.find?).filter Signature.hasParams
  else none

/-! ## Counts -/

theorem ofDeclarator_checks (ctx : Context) (c : Cursor) :
    (Visit.ofDeclarator ctx c).checks =
      (c.node.boundName?.isSome && (c.node.child? .value).isSome &&
        (ctx.source.annotation? c).isSome).toNat := by
  unfold Visit.ofDeclarator
  cases c.node.boundName? with
  | none => rfl
  | some name =>
    cases c.node.child? .value with
    | none => rfl
    | some value => cases ctx.source.annotation? c <;> rfl

/-- An assignment counts if its target is tracked, since what is tracked has a declared type. -/
theorem ofAssignment_checks {known : Tracker}
    (hd : ∀ name b, known.find? name = some b → b.declared.isSome = true) (n : Node) :
    (Visit.ofAssignment known n).checks = (n.targetName?.any known.contains).toNat := by
  unfold Visit.ofAssignment
  cases n.targetName? with
  | none => rfl
  | some name =>
    simp only [Option.any_some, NameMap.contains]
    cases hf : known.find? name with
    | none => rfl
    | some b =>
      obtain ⟨_ | declared, inferred, complex⟩ := b
      · cases hd name _ hf
      · rfl

theorem ofCall_checks (ctx : Context) (n : Node) :
    (Visit.ofCall ctx n).checks =
      ((n.callee?.bind ctx.signatures.find?).filter Signature.hasParams).elim 0
        (·.params.length) := by
  unfold Visit.ofCall
  cases n.callee?.bind ctx.signatures.find? with
  | none => rfl
  | some f => cases hp : f.hasParams <;> simp [Option.filter, Visit.checks, hp]

/-- What a node counts for. -/
theorem visit_checks (ctx : Context) {known : Tracker}
    (hd : ∀ name b, known.find? name = some b → b.declared.isSome = true) (c : Cursor) :
    (visit ctx known c).checks = (annotates ctx c).toNat + (assigns ctx known c).toNat +
      (calledSignature? ctx c).elim 0 (·.params.length) := by
  cases h : ctx.directives.cutsOff c.node.line with
  | true => simp [visit_of_cutsOff h, annotates, assigns, calledSignature?, h, Visit.checks]
  | false =>
    cases hk : c.node.kind with
    | variableDeclarator =>
      simp [visit, annotates, assigns, calledSignature?, h, hk, ofDeclarator_checks]
    | assignment | compoundAssignment =>
      simp [visit, annotates, assigns, calledSignature?, h, hk, ofAssignment_checks hd]
    | call => simp [visit, annotates, assigns, calledSignature?, h, hk, ofCall_checks]
    | _ => simp [visit, annotates, assigns, calledSignature?, h, hk, Visit.checks]

/-- The variables known during a walk have declared types. -/
theorem State.Accounted.declared {s : State} (hs : s.Accounted) (name : String) (b : Binding)
    (hb : s.bindings.find? name = some b) : b.declared.isSome = true :=
  Option.isSome_iff_exists.mpr (hs.exists_declared (NameMap.mem_of_find? hb))

theorem total_visit_checks (ctx : Context) {vs : List (State × Cursor)}
    (hvs : ∀ v ∈ vs, v.1.Accounted) :
    total (fun v => (visit ctx v.1.bindings v.2).checks) vs =
      (vs.map Prod.snd).countP (annotates ctx) +
      vs.countP (fun v => assigns ctx v.1.bindings v.2) +
      total (·.params.length) ((vs.map Prod.snd).filterMap (calledSignature? ctx)) := by
  induction vs with
  | nil => rfl
  | cons v vs ih =>
    obtain ⟨hv, hvs⟩ := List.forall_mem_cons.mp hvs
    have hone : ∀ b : Bool, (if b = true then 1 else 0) = b.toNat := by decide
    simp only [List.map_cons, total_cons, List.countP_cons, ih hvs,
      visit_checks ctx hv.declared v.2, hone]
    cases hf : calledSignature? ctx v.2 with
    | none =>
      rw [List.filterMap_cons_none hf, Option.elim_none]
      omega
    | some f =>
      rw [List.filterMap_cons_some hf, Option.elim_some, total_cons]
      omega

theorem visits_accounted {ctx : Context} {cs : List Cursor} {v : State × Cursor}
    (hv : v ∈ visits ctx {} cs) : v.1.Accounted := by
  obtain ⟨before, -, -, hv⟩ := exists_of_mem_visits hv
  rw [hv]
  exact walk_accounted ctx before

/-! ## Mismatches -/

theorem length_compared_le (ctx : Context) (known : Tracker) (site : Site) (n : Node)
    (name : String) (declared : TypeName) (complex : Bool) (value : Option Node) :
    (compared ctx known site n name declared complex value).length ≤ 1 := by
  unfold compared
  split <;> simp

/-- A call reports at most one mismatch for each parameter that has an argument. -/
theorem length_call_reports_le (ctx : Context) (known : Tracker) (n : Node) (f : Signature)
    (arguments : List Node) :
    ((Visit.call f arguments).reports ctx known n).length ≤
      min f.params.length arguments.length := by
  rw [← List.length_zip]
  exact List.length_filterMap_le ..

/-- A node reports no more than it counts. -/
theorem length_reports_le (ctx : Context) (known : Tracker) (n : Node) (v : Visit) :
    (v.reports ctx known n).length ≤ v.checks := by
  cases v with
  | pass | unannotated => exact Nat.le_refl 0
  | annotated | assignment => exact length_compared_le ..
  | call f arguments =>
    exact Nat.le_trans (length_call_reports_le ctx known n f arguments) (Nat.min_le_left ..)

theorem visit_of_calledSignature? {ctx : Context} {c : Cursor} {f : Signature}
    (h : calledSignature? ctx c = some f) (known : Tracker) :
    visit ctx known c = .call f c.node.arguments := by
  unfold calledSignature? at h
  split at h
  · rename_i hc
    simp only [Bool.and_eq_true, decide_eq_true_eq, Bool.not_eq_true'] at hc
    obtain ⟨hf, hp⟩ := Option.filter_eq_some_iff.mp h
    simp [visit, hc.1, hc.2, Visit.ofCall, hf, hp]
  · cases h

/-- What a node may report: a declarator and an assignment one mismatch, a call one for each
parameter with an argument, and any other node none. -/
structure ReportsWithin (ctx : Context) (known : Tracker) (c : Cursor)
    (new : List Diagnostic) : Prop where
  declarator : annotates ctx c = true → new.length ≤ 1
  assignment : assigns ctx known c = true → new.length ≤ 1
  call : ∀ f, calledSignature? ctx c = some f →
    new.length ≤ min f.params.length c.node.arguments.length
  other : annotates ctx c = false → assigns ctx known c = false → calledSignature? ctx c = none →
    new = []

theorem reportsWithin (ctx : Context) {s : State} (hs : s.Accounted) (c : Cursor) :
    ReportsWithin ctx s.bindings c ((visit ctx s.bindings c).reports ctx s.bindings c.node) := by
  have hle := length_reports_le ctx s.bindings c.node (visit ctx s.bindings c)
  rw [visit_checks ctx hs.declared c] at hle
  have hcall : c.node.kind ≠ .call → calledSignature? ctx c = none := by
    intro hk
    simp [calledSignature?, hk]
  constructor
  · intro ha
    have hk : c.node.kind = .variableDeclarator := by
      simp only [annotates, Bool.and_eq_true, decide_eq_true_eq] at ha
      exact ha.1.1.1.1
    have hb : assigns ctx s.bindings c = false := by simp [assigns, hk]
    rw [ha, hb, hcall (by rw [hk]; nofun)] at hle
    exact hle
  · intro hb
    have hk : c.node.kind = .assignment ∨ c.node.kind = .compoundAssignment := by
      simp only [assigns, Bool.and_eq_true, Bool.or_eq_true, decide_eq_true_eq] at hb
      exact hb.1.1
    have ha : annotates ctx c = false := by
      rcases hk with hk | hk <;> simp [annotates, hk]
    rw [ha, hb, hcall (by rcases hk with hk | hk <;> rw [hk] <;> nofun)] at hle
    exact hle
  · intro f hf
    rw [visit_of_calledSignature? hf]
    exact length_call_reports_le ..
  · intro ha hb hf
    rw [ha, hb, hf] at hle
    exact List.eq_nil_of_length_eq_zero (Nat.le_zero.mp hle)

theorem walk_errors_le_checks (ctx : Context) (cs : List Cursor) :
    (walk ctx {} cs).diagnostics.length ≤ (walk ctx {} cs).checks := by
  refine walk_induction (s := {}) (P := fun s => s.diagnostics.length ≤ s.checks)
    (fun s c hs => ?_) (Nat.le_refl 0) cs
  have he := step_effect ctx s c
  have hle := length_reports_le ctx s.bindings c.node (visit ctx s.bindings c)
  rw [he.diagnostics, he.checks, List.length_append]
  omega

/-! ## Results -/

/-- A result has no more mismatches than comparisons, and neither unless the file was checked. -/
structure Balanced (r : FileResult) : Prop where
  errors_le : r.errorCount ≤ r.checks
  unchecked : r.status ≠ .checked → r.errorCount = 0 ∧ r.checks = 0

theorem source_balanced (infer : Bool) (s : Source) : Balanced (source infer s).value.result := by
  cases h : (Directives.ofSource s).skipped with
  | true =>
    rw [source_of_skipped h]
    exact ⟨Nat.le_refl 0, fun _ => ⟨rfl, rfl⟩⟩
  | false =>
    rw [source_of_not_skipped h]
    exact ⟨walk_errors_le_checks .., fun hc => absurd rfl hc⟩

/-- What is read and checked at all is checked as a source file. -/
theorem checkPath_eq_ok {setting : Setting} {path shown : String} {o : Outcome}
    (h : (Run.checkPath setting path shown).value = .ok o) :
    ∃ content, o = (source setting.config.infer
      (.ofTree shown content (setting.grammar content))).value := by
  unfold Run.checkPath at h
  split at h
  · cases h
  · rename_i content hread
    simp only [Logged.value_bind, Logged.value_pure, text_eq] at h
    cases hfault : (setting.grammar content).syntaxFault? with
    | some n =>
      rw [hfault] at h
      cases h
    | none =>
      rw [hfault] at h
      cases h
      exact ⟨content, rfl⟩

theorem checkOne_balanced {setting : Setting} {path : String} {r : FileResult}
    (h : (Run.checkOne setting path).value = .ok r) : Balanced r := by
  unfold Run.checkOne at h
  simp only [Logged.value_bind] at h
  split at h
  · rename_i o ho
    cases h
    obtain ⟨content, rfl⟩ := checkPath_eq_ok ho
    exact source_balanced ..
  · cases h
  · cases h
    exact ⟨Nat.le_refl 0, fun _ => ⟨rfl, rfl⟩⟩

/-- The count of a file that is checked is the number of its annotated declarators, of the
assignments whose target is tracked when the walk reaches them, and of the parameters of the
functions that its calls call. No node reports more than its share, so no result has more
mismatches than comparisons. -/
theorem checks_count_sites (infer : Bool) (s : Source) :
    ((Directives.ofSource s).skipped = false →
      (source infer s).value.result.checks =
        s.root.cursors.countP (annotates (fileContext infer s)) +
        (visits (fileContext infer s) {} s.root.cursors).countP
          (fun v => assigns (fileContext infer s) v.1.bindings v.2) +
        total (·.params.length)
          (s.root.cursors.filterMap (calledSignature? (fileContext infer s))) ∧
      ∀ v ∈ visits (fileContext infer s) {} s.root.cursors, ∃ new,
        (step (fileContext infer s) v.1 v.2).diagnostics = v.1.diagnostics ++ new ∧
        ReportsWithin (fileContext infer s) v.1.bindings v.2 new) ∧
    Balanced (source infer s).value.result ∧
    ∀ (setting : Setting) (path : String) (r : FileResult),
      (Run.checkOne setting path).value = .ok r → Balanced r := by
  refine ⟨fun h => ⟨?_, fun v hv => ?_⟩, source_balanced infer s, fun _ _ _ => checkOne_balanced⟩
  · rw [source_of_not_skipped h]
    show (walk (fileContext infer s) {} s.root.cursors).checks = _
    rw [walk_checks, total_visit_checks _ fun _ => visits_accounted, map_snd_visits]
    exact Nat.zero_add _
  · exact ⟨_, (step_effect _ v.1 v.2).diagnostics, reportsWithin _ (visits_accounted hv) v.2⟩

/-- A declaration, an assignment that fails and a call. -/
def threeSites : Source :=
  .ofOutline "a.js"
    "/** @param \x7bnumber\x7d a */\nfunction f(a) \x7b\x7d\nlet n /*: number */ = 1;\nn = 'x';\nf(n);"
    [.rule "program" "" 0 81 5, .rule "comment" "" 0 24 0,
      .rule "function_declaration" "" 25 41 1, .rule "identifier" "name" 34 35 0,
      .rule "lexical_declaration" "" 42 66 1, .rule "variable_declarator" "" 46 65 3,
      .rule "identifier" "name" 46 47 0, .rule "comment" "" 48 61 0,
      .rule "number" "value" 64 65 0, .rule "expression_statement" "" 67 75 1,
      .rule "assignment_expression" "" 67 74 2, .rule "identifier" "left" 67 68 0,
      .rule "string" "right" 71 74 0, .rule "expression_statement" "" 76 81 1,
      .rule "call_expression" "" 76 80 2, .rule "identifier" "function" 76 77 0,
      .rule "arguments" "arguments" 77 80 1, .rule "identifier" "" 78 79 0]

theorem threeSites_checks :
    (Directives.ofSource threeSites).skipped = false ∧
    (source false threeSites).value.result.checks = 1 + 1 + 1 := by
  have h : (Directives.ofSource threeSites).skipped = false := by decide +kernel
  refine ⟨h, ((checks_count_sites false threeSites).1 h).1.trans ?_⟩
  decide +kernel

end CommentTypes.Check
