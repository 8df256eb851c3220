import CommentTypes.Proofs.Check.Count
import CommentTypes.Proofs.Tree.Order

/-!
# Where checking stops

A cutoff is tested site by site: a node that starts after the line is passed over, and nothing
else is touched. In a well-formed file the nodes come by lines, so passing over these nodes is to
stop the walk at the first of them (`walk_cutAt`), and an earlier cutoff leaves less of the same
(`walk_prefix`).

What is reported lies at the site itself, except that the mismatch of an argument lies at the
argument (`mem_visit_reports`). A call that starts in time is compared as a whole, so its
arguments are the only places after the line at which anything is reported.
-/

namespace CommentTypes.Check

/-- The context with another cutoff. -/
def Context.cutAt (ctx : Context) (cutoff : Option Int) : Context :=
  { ctx with directives := { ctx.directives with cutoff } }

section

variable (ctx : Context) (cutoff : Option Int)

@[simp] theorem cutAt_source : (ctx.cutAt cutoff).source = ctx.source := rfl
@[simp] theorem cutAt_signatures : (ctx.cutAt cutoff).signatures = ctx.signatures := rfl
@[simp] theorem annotated_cutAt : annotated (ctx.cutAt cutoff) = annotated ctx := rfl
@[simp] theorem unannotated_cutAt : unannotated (ctx.cutAt cutoff) = unannotated ctx := rfl
@[simp] theorem argument_cutAt : argument (ctx.cutAt cutoff) = argument ctx := rfl

end

@[simp]
theorem cutsOff_cutAt_some (ctx : Context) (last line : Int) :
    (ctx.cutAt (some last)).directives.cutsOff line = decide (last < line) := rfl

theorem cutsOff_mono {d : Directives} {a b : Int} (h : d.cutsOff a = true) (hab : a ≤ b) :
    d.cutsOff b = true := by
  obtain ⟨skipped, cutoff⟩ := d
  cases cutoff with
  | none => cases h
  | some last =>
    simp only [Directives.cutsOff, Option.any_some, decide_eq_true_eq] at h ⊢
    omega

/-- A cutoff matters to a node only in whether it cuts off the node. -/
theorem step_cutAt_congr {ctx : Context} {a b : Option Int} {c : Cursor}
    (h : (ctx.cutAt a).directives.cutsOff c.node.line =
      (ctx.cutAt b).directives.cutsOff c.node.line) (s : State) :
    step (ctx.cutAt a) s c = step (ctx.cutAt b) s c := by
  unfold step
  split
  · simp only [declarator, annotated_cutAt, unannotated_cutAt, cutAt_source, h]
  · unfold assignment
    rw [h]
    congr
  · unfold assignment
    rw [h]
    congr
  · simp only [call, argument_cutAt, cutAt_signatures, h]
  · rfl

theorem walk_of_cutsOff {ctx : Context} (s : State) {cs : List Cursor}
    (h : ∀ c ∈ cs, ctx.directives.cutsOff c.node.line = true) : walk ctx s cs = s := by
  induction cs with
  | nil => rfl
  | cons c cs ih =>
    obtain ⟨hc, hcs⟩ := List.forall_mem_cons.mp h
    rw [walk_cons, step_of_cutsOff hc, ih hcs]

/-- A cutoff stops a walk over nodes that come by lines at the first node that is cut off. -/
theorem walk_cutAt (ctx : Context) (cutoff : Option Int) (s : State) {cs : List Cursor}
    (h : cs.Pairwise fun c d => c.node.line ≤ d.node.line) :
    walk (ctx.cutAt cutoff) s cs =
      walk (ctx.cutAt none) s
        (cs.takeWhile fun c => !(ctx.cutAt cutoff).directives.cutsOff c.node.line) := by
  induction cs generalizing s with
  | nil => rw [List.takeWhile_nil, walk_nil, walk_nil]
  | cons c cs ih =>
    obtain ⟨hc, hcs⟩ := List.pairwise_cons.mp h
    cases hl : (ctx.cutAt cutoff).directives.cutsOff c.node.line with
    | false =>
      rw [List.takeWhile_cons_of_pos (by simp [hl]), walk_cons, walk_cons,
        step_cutAt_congr (b := none) hl, ih _ hcs]
    | true =>
      rw [List.takeWhile_cons_of_neg (by simp [hl]), walk_nil]
      refine walk_of_cutsOff s fun d hd => ?_
      rcases List.mem_cons.mp hd with rfl | hd
      · exact hl
      · exact cutsOff_mono hl (by exact_mod_cast hc d hd)

/-- A walk that goes on keeps what it has reported and counted. -/
theorem walk_prefix (ctx : Context) (s : State) {cs ds : List Cursor} (h : cs <+: ds) :
    (walk ctx s cs).diagnostics <+: (walk ctx s ds).diagnostics ∧
      (walk ctx s cs).checks ≤ (walk ctx s ds).checks := by
  obtain ⟨rest, rfl⟩ := h
  rw [walk_append, walk_diagnostics ctx _ rest, walk_checks ctx _ rest]
  exact ⟨List.prefix_append .., Nat.le_add_right ..⟩

theorem takeWhile_prefix_of_imp {α : Type} {p q : α → Bool} (h : ∀ a, p a = true → q a = true)
    (l : List α) : l.takeWhile p <+: l.takeWhile q := by
  induction l with
  | nil => exact List.prefix_rfl
  | cons a l ih =>
    cases hp : p a with
    | false =>
      rw [List.takeWhile_cons_of_neg (by simp [hp])]
      exact List.nil_prefix
    | true =>
      rw [List.takeWhile_cons_of_pos hp, List.takeWhile_cons_of_pos (h a hp)]
      exact List.cons_prefix_cons.mpr ⟨rfl, ih⟩

/-- In a well-formed file a cutoff gives what stopping the walk gives: the same diagnostics, counts,
variables and records. So an earlier cutoff gives the beginning of what a later one or none
gives. -/
theorem cutoff_truncates_walk (ctx : Context) (h : ctx.source.WellFormed) (last : Int) :
    walk (ctx.cutAt (some last)) {} ctx.source.root.cursors =
      walk (ctx.cutAt none) {} (ctx.source.root.cursors.takeWhile fun c => c.node.line ≤ last) ∧
    ∀ later : Option Int, (∀ l ∈ later, last ≤ l) →
      (walk (ctx.cutAt (some last)) {} ctx.source.root.cursors).diagnostics <+:
        (walk (ctx.cutAt later) {} ctx.source.root.cursors).diagnostics ∧
      (walk (ctx.cutAt (some last)) {} ctx.source.root.cursors).checks ≤
        (walk (ctx.cutAt later) {} ctx.source.root.cursors).checks := by
  have hlines := cursors_lines h
  refine ⟨?_, fun later hl => ?_⟩
  · have hcut : (fun c : Cursor => !(ctx.cutAt (some last)).directives.cutsOff c.node.line) =
        fun c => decide ((c.node.line : Int) ≤ last) := by
      funext c
      rw [cutsOff_cutAt_some, ← decide_not, decide_eq_decide]
      omega
    rw [walk_cutAt ctx (some last) {} hlines, hcut]
  · rw [walk_cutAt ctx (some last) {} hlines, walk_cutAt ctx later {} hlines]
    refine walk_prefix _ _ (takeWhile_prefix_of_imp (fun c hc => ?_) _)
    cases later with
    | none => rfl
    | some l =>
      have := hl l rfl
      simp only [cutsOff_cutAt_some, Bool.not_eq_true', decide_eq_false_iff_not] at hc ⊢
      omega

theorem threeSites_cutoff :
    threeSites.WellFormed ∧
    walk ((fileContext false threeSites).cutAt (some 3)) {} threeSites.root.cursors =
      walk ((fileContext false threeSites).cutAt none) {}
        (threeSites.root.cursors.takeWhile fun c => c.node.line ≤ (3 : Int)) ∧
    (walk ((fileContext false threeSites).cutAt (some 3)) {} threeSites.root.cursors).diagnostics <+:
      (walk ((fileContext false threeSites).cutAt (some 4)) {} threeSites.root.cursors).diagnostics ∧
    (walk ((fileContext false threeSites).cutAt (some 3)) {} threeSites.root.cursors).checks ≤
      (walk ((fileContext false threeSites).cutAt (some 4)) {} threeSites.root.cursors).checks := by
  have h : threeSites.WellFormed := by decide +kernel
  obtain ⟨hwalk, hlater⟩ := cutoff_truncates_walk (fileContext false threeSites) h 3
  exact ⟨h, hwalk, hlater (some 4) (by decide)⟩

/-! ## Reports after the line -/

/-- The parameters and arguments that a call compares. -/
def comparedArguments (ctx : Context) (c : Cursor) : List ((String × TypeName) × Node) :=
  (calledSignature? ctx c).elim [] fun f => f.params.zip c.node.arguments

theorem mem_compared {ctx : Context} {known : Tracker} {site : Site} {n : Node} {name : String}
    {declared : TypeName} {complex : Bool} {value : Option Node} {d : Diagnostic}
    (h : d ∈ compared ctx known site n name declared complex value) :
    d.site = site ∧ d.location.line = n.line := by
  unfold compared at h
  split at h
  · cases h
  · obtain rfl := List.mem_singleton.mp h
    exact ⟨rfl, rfl⟩

theorem argumentReport?_eq_some {ctx : Context} {known : Tracker}
    {p : (String × TypeName) × Node} {d : Diagnostic} (h : argumentReport? ctx known p = some d) :
    ctx.typeOf known (some p.2) none ≠ p.1.2 ∧ d.site = .argument ∧
      d.location.line = p.2.line := by
  simp only [argumentReport?] at h
  split at h
  · cases h
  · rename_i hne
    cases h
    exact ⟨hne, rfl, rfl⟩

theorem argumentReport?_of_ne {ctx : Context} {known : Tracker} {p : (String × TypeName) × Node}
    (h : ctx.typeOf known (some p.2) none ≠ p.1.2) : ∃ d, argumentReport? ctx known p = some d :=
  ⟨_, if_neg h⟩

theorem calledSignature?_of_visit {ctx : Context} {known : Tracker} {c : Cursor} {f : Signature}
    {arguments : List Node} (h : visit ctx known c = .call f arguments) :
    calledSignature? ctx c = some f ∧ c.node.arguments = arguments := by
  have ht := visit_taken ctx known c
  rw [h] at ht
  obtain ⟨hk, hf, hp, ha⟩ := ht
  have hcut := not_cutsOff_of_visit (by rw [h]; nofun : visit ctx known c ≠ .pass)
  exact ⟨by simp [calledSignature?, hk, hcut, hf, hp], ha⟩

/-- A report lies at the node, which is not cut off, or is that of an argument. -/
theorem mem_visit_reports {ctx : Context} {known : Tracker} {c : Cursor} {d : Diagnostic}
    (h : d ∈ (visit ctx known c).reports ctx known c.node) :
    (d.site ≠ .argument ∧ d.location.line = c.node.line ∧
      ctx.directives.cutsOff c.node.line = false) ∨
    ∃ p ∈ comparedArguments ctx c, argumentReport? ctx known p = some d := by
  have hcut : ctx.directives.cutsOff c.node.line = false :=
    not_cutsOff_of_visit fun hpass => by rw [hpass] at h; cases h
  cases hv : visit ctx known c with
  | pass | unannotated => rw [hv] at h; cases h
  | annotated | assignment =>
    rw [hv] at h
    obtain ⟨hs, hl⟩ := mem_compared h
    exact .inl ⟨by rw [hs]; nofun, hl, hcut⟩
  | call f arguments =>
    obtain ⟨hf, rfl⟩ := calledSignature?_of_visit hv
    rw [hv] at h
    obtain ⟨p, hp, hd⟩ := List.mem_filterMap.mp h
    exact .inr ⟨p, by simpa [comparedArguments, hf] using hp, hd⟩

/-- The mismatch of an argument that a call compares is reported. -/
theorem mem_visit_reports_of_argument {ctx : Context} {known : Tracker} {c : Cursor}
    {p : (String × TypeName) × Node} (hp : p ∈ comparedArguments ctx c) {d : Diagnostic}
    (hd : argumentReport? ctx known p = some d) :
    d ∈ (visit ctx known c).reports ctx known c.node := by
  unfold comparedArguments at hp
  cases hf : calledSignature? ctx c with
  | none => rw [hf] at hp; cases hp
  | some f =>
    rw [hf] at hp
    rw [visit_of_calledSignature? hf]
    exact List.mem_filterMap.mpr ⟨p, hp, hd⟩

theorem mem_source_diagnostics {infer : Bool} {s : Source}
    (h : (Directives.ofSource s).skipped = false) {d : Diagnostic} :
    d ∈ (source infer s).value.result.diagnostics ↔
      ∃ v ∈ visits (fileContext infer s) {} s.root.cursors,
        d ∈ (visit (fileContext infer s) v.1.bindings v.2).reports (fileContext infer s)
          v.1.bindings v.2.node := by
  rw [source_of_not_skipped h]
  show d ∈ (walk (fileContext infer s) {} s.root.cursors).diagnostics ↔ _
  rw [walk_diagnostics, List.nil_append, List.mem_flatMap]

theorem line_le_or_argument {infer : Bool} {s : Source} {last : Nat}
    (hline : Directives.cutoffLine? s.lines = some last) {known : Tracker} {c : Cursor}
    {d : Diagnostic}
    (h : d ∈ (visit (fileContext infer s) known c).reports (fileContext infer s) known c.node) :
    (d.site ≠ .argument ∧ d.location.line ≤ last) ∨
    ∃ p ∈ comparedArguments (fileContext infer s) c,
      argumentReport? (fileContext infer s) known p = some d := by
  refine (mem_visit_reports h).imp_left fun ⟨hsite, hl, hcut⟩ => ⟨hsite, ?_⟩
  rw [hl]
  simpa [fileContext, Directives.ofSource, Directives.cutsOff, hline] using hcut

/-- In a file with a cutoff, declarations and assignments are reported up to its line. All reports
are, exactly if every argument that starts later, of a call that does not, has the type of its
parameter. -/
theorem reports_up_to_cutoff_iff (infer : Bool) (s : Source) (last : Nat)
    (hline : Directives.cutoffLine? s.lines = some last)
    (hskip : (Directives.ofSource s).skipped = false) :
    (∀ d ∈ (source infer s).value.result.diagnostics, d.site ≠ .argument →
      d.location.line ≤ last) ∧
    ((∀ d ∈ (source infer s).value.result.diagnostics, d.location.line ≤ last) ↔
      ∀ v ∈ visits (fileContext infer s) {} s.root.cursors,
        ∀ p ∈ comparedArguments (fileContext infer s) v.2, last < p.2.line →
          (fileContext infer s).typeOf v.1.bindings (some p.2) none = p.1.2) := by
  simp only [mem_source_diagnostics hskip]
  refine ⟨?_, fun h v hv p hp hlate => ?_, fun h d => ?_⟩
  · rintro d ⟨v, -, hd⟩ hsite
    obtain ⟨-, hl⟩ | ⟨p, -, hr⟩ := line_le_or_argument hline hd
    · exact hl
    · exact absurd (argumentReport?_eq_some hr).2.1 hsite
  · refine Decidable.byContradiction fun hne => ?_
    -- the mismatch is reported where the argument starts
    obtain ⟨d, hr⟩ := argumentReport?_of_ne hne
    have := h d ⟨v, hv, mem_visit_reports_of_argument hp hr⟩
    rw [(argumentReport?_eq_some hr).2.2] at this
    omega
  · rintro ⟨v, hv, hd⟩
    obtain ⟨-, hl⟩ | ⟨p, hp, hr⟩ := line_le_or_argument hline hd
    · exact hl
    · obtain ⟨hne, -, hl⟩ := argumentReport?_eq_some hr
      rw [hl]
      refine Int.not_lt.mp fun hlate => hne (h v hv p hp ?_)
      exact_mod_cast hlate

/-- A call with the mark on its first line and an argument on the next. -/
def lateArgument : Source :=
  .ofOutline "a.js"
    "/** @param \x7bnumber\x7d a */\nfunction f(a) \x7b\x7d\nf(/*: skip-remaining */\n'x');"
    [.rule "program" "" 0 71 3, .rule "comment" "" 0 24 0,
      .rule "function_declaration" "" 25 41 1, .rule "identifier" "name" 34 35 0,
      .rule "expression_statement" "" 42 71 1, .rule "call_expression" "" 42 70 2,
      .rule "identifier" "function" 42 43 0, .rule "arguments" "arguments" 43 70 2,
      .rule "comment" "" 44 65 0, .rule "string" "" 66 69 0]

theorem lateArgument_reported :
    Directives.cutoffLine? lateArgument.lines = some 3 ∧
    (Directives.ofSource lateArgument).skipped = false ∧
    ¬ ∀ d ∈ (source false lateArgument).value.result.diagnostics, d.location.line ≤ 3 := by
  have hline : Directives.cutoffLine? lateArgument.lines = some 3 := by decide +kernel
  have hskip : (Directives.ofSource lateArgument).skipped = false := by decide +kernel
  refine ⟨hline, hskip, mt (reports_up_to_cutoff_iff false lateArgument 3 hline hskip).2.mp ?_⟩
  decide +kernel

end CommentTypes.Check
