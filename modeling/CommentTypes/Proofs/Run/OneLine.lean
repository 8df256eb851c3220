import CommentTypes.Proofs.Annotation.Inline
import CommentTypes.Proofs.Check.Genuine
import CommentTypes.Proofs.Check.Vocabulary
import CommentTypes.Proofs.Run.Accounting
import CommentTypes.Proofs.Tree.Leading

/-!
# Mismatches on one line

A mismatch that is shown with its place first is on one line if its parts are: the path, the name,
the two types and the text of the value (`Diagnostic.oneLine_gcc`). The types of annotations have no
line feed, and neither have the names of tagged parameters. The types of tags take everything up to
a brace, and a string may go on after a backslash on the next line, so what is left
(`Diagnostic.Breaks`) can break the line.

The lines of a whole run are those of its mismatches (`RunResults.length_lines_gcc`): there are as
many lines as mismatches exactly if each is on one line.
-/

namespace CommentTypes

/-! ## Texts on one line -/

namespace Text

/-- The text has no line feed. -/
def OneLine (s : String) : Prop :=
  '\n' ∉ s.toList

instance (s : String) : Decidable (OneLine s) :=
  inferInstanceAs (Decidable ('\n' ∉ s.toList))

@[simp]
theorem oneLine_append (s t : String) : OneLine (s ++ t) ↔ OneLine s ∧ OneLine t := by
  rw [OneLine, String.toList_append, List.mem_append, not_or]
  rfl

@[simp]
theorem oneLine_toString (s : String) : OneLine (toString s) ↔ OneLine s :=
  Iff.rfl

theorem oneLine_lower (s : String) : OneLine (lower s) ↔ OneLine s :=
  not_congr (mem_lower (by decide) s)

theorem oneLine_of_forall {p : Char → Bool} {s : String} (h : ∀ c ∈ s.toList, p c = true)
    (hp : p '\n' = false) : OneLine s := by
  intro hmem
  rw [h _ hmem] at hp
  cases hp

theorem oneLine_nat (n : Nat) : OneLine n.repr := by
  refine oneLine_of_forall (p := Char.isDigit) (fun c hc => ?_) (by decide)
  rw [Nat.repr, String.toList_ofList] at hc
  exact Nat.isDigit_of_mem_toDigits (by decide) (by decide) hc

@[simp]
theorem oneLine_int (n : Int) : OneLine n.repr := by
  cases n with
  | ofNat n => exact oneLine_nat n
  | negSucc n => exact (oneLine_append "-" _).mpr ⟨by decide, oneLine_nat (n + 1)⟩

theorem length_lines (s : String) : (lines s).length = s.toList.count '\n' + 1 := by
  rw [lines, List.length_map, length_splitOn]

theorem length_lines_eq_one {s : String} : (lines s).length = 1 ↔ OneLine s := by
  rw [length_lines, Nat.add_eq_right, List.count_eq_zero, OneLine]

/-- Texts that are put one below the other have their lines together. -/
theorem length_lines_unlines {ls : List String} (h : ls ≠ []) :
    (lines (unlines ls)).length = total (fun l => (lines l).length) ls := by
  induction ls with
  | nil => exact absurd rfl h
  | cons l ls ih =>
    cases ls with
    | nil => simp [unlines, joinWith]
    | cons k ls =>
      have hsplit : (unlines (l :: k :: ls)).toList =
          l.toList ++ '\n' :: (unlines (k :: ls)).toList := by
        simp [unlines, joinWith, List.intercalate_cons_cons]
      rw [total_cons, ← ih (List.cons_ne_nil k ls), lines, hsplit, splitOn_append_cons]
      simp [lines]

end Text

open Text

section Totals

variable {α : Type} {f : α → Nat} (h : ∀ a, 1 ≤ f a) (as : List α)
include h

theorem length_le_total : as.length ≤ total f as := by
  induction as with
  | nil => exact Nat.le_refl 0
  | cons a as ih =>
    have ha := h a
    rw [total_cons, List.length_cons]
    omega

theorem total_eq_length_iff : total f as = as.length ↔ ∀ a ∈ as, f a = 1 := by
  induction as with
  | nil => simp
  | cons a as ih =>
    have ha := h a
    have has := length_le_total h as
    rw [total_cons, List.length_cons, List.forall_mem_cons]
    refine Iff.trans ?_ (and_congr Iff.rfl ih)
    omega

end Totals

/-! ## The parts of a mismatch -/

theorem Location.oneLine_render (l : Location) : OneLine l.render ↔ OneLine l.file := by
  unfold render
  split <;> simp +decide

theorem Site.oneLine_label (site : Site) : OneLine site.label := by
  cases site <;> decide

namespace Diagnostic

theorem oneLine_foundText (d : Diagnostic) :
    OneLine d.foundText ↔ OneLine d.found ∧ OneLine d.value := by
  unfold foundText
  split
  · rename_i hvalue
    simp [hvalue, OneLine]
  · simp +decide

/-- A mismatch with its place first is on one line if all its parts are. -/
theorem oneLine_gcc (d : Diagnostic) :
    OneLine d.gcc ↔ OneLine d.location.file ∧ OneLine d.subject ∧ OneLine d.expected ∧
      OneLine d.found ∧ OneLine d.value := by
  simp +decide [gcc, message, d.location.oneLine_render, d.site.oneLine_label, d.oneLine_foundText,
    and_assoc]

end Diagnostic

/-! ## Annotations and tags -/

namespace Form

/-- A type with marks around it is on one line. -/
theorem oneLine_marked {opening mark closing cs rest : List Char} {parts : List String}
    {type : String} (h : marked opening mark closing cs = some (parts, rest))
    (htype : type ∈ parts) : OneLine type := by
  obtain ⟨_, _, type, _, -, -, hrun, -, rfl⟩ := marked_eq_some.mp h
  obtain rfl := List.mem_singleton.mp htype
  exact oneLine_of_forall (run?_eq_some hrun).2.1 (by decide)

/-- The name in a parameter tag is on one line, whatever its type is. -/
theorem oneLine_paramTag {cs rest : List Char} {parts : List String} {param : String × TypeName}
    (h : paramTag cs = some (parts, rest)) (hparam : Tags.param? parts = some param) :
    OneLine param.1 := by
  simp only [paramTag, Option.bind_eq_bind, Option.bind_eq_some_iff, Option.pure_def,
    Option.some.injEq, Prod.mk.injEq, Prod.exists] at h
  obtain ⟨_, -, _, -, type, _, -, name, _, hrun, rfl, -⟩ := h
  cases hparam
  exact oneLine_of_forall (run?_eq_some hrun).2.1 (by decide)

end Form

theorem Pattern.exists_of_find? {p : Pattern} {text part : String} (h : p.find? text = some part) :
    ∃ t parts rest, p t = some (parts, rest) ∧ part ∈ parts := by
  obtain ⟨parts, hfirst, hhead⟩ := Option.bind_eq_some_iff.mp h
  obtain ⟨t, rest, -, hp⟩ := exists_of_firstFrom hfirst
  exact ⟨t, parts, rest, hp, List.mem_of_head? hhead⟩

/-- A type that an annotation declares has no line feed. -/
theorem Source.oneLine_of_annotation? {s : Source} {c : Cursor} {a : Annotation}
    (h : s.annotation? c = some a) : OneLine a.declared := by
  obtain ⟨raw, hraw, rfl⟩ := Option.map_eq_some_iff.mp h
  refine (oneLine_lower raw).mpr ?_
  rcases Option.or_eq_some_iff.mp hraw with hinline | ⟨-, htag⟩
  · obtain ⟨_, _, _, hp, hmem⟩ := Pattern.exists_of_find? hinline
    rw [Form.inline_eq_marked] at hp
    exact Form.oneLine_marked hp hmem
  · obtain ⟨m, -, hfind⟩ := List.exists_of_findSome?_eq_some htag
    obtain ⟨_, _, _, hp, hmem⟩ := Pattern.exists_of_find? hfind
    rw [Form.typeTag_eq_marked] at hp
    exact Form.oneLine_marked hp hmem

/-- The name of a tagged parameter has no line feed. -/
theorem Cursor.oneLine_of_mem_params {c : Cursor} {f : Signature} (h : c.signature? = some f)
    {param : String × TypeName} (hparam : param ∈ f.params) : OneLine param.1 := by
  rw [(signature?_eq_some h).1, List.mem_flatMap] at hparam
  obtain ⟨m, -, hm⟩ := hparam
  obtain ⟨o, ho, hparts⟩ := List.mem_filterMap.mp hm
  obtain ⟨t, rest, -, hp⟩ := Pattern.exists_of_mem_occurrencesFrom ho
  exact Form.oneLine_paramTag hp hparts

/-! ## Where a line feed comes from -/

theorem Node.exists_of_identifierIn? {root n : Node} {role : Role} {name : String}
    (hn : n ∈ root.preorder) (h : n.identifierIn? role = some name) :
    ∃ m ∈ root.preorder, m.kind = .identifier ∧ m.text = name := by
  unfold identifierIn? at h
  split at h
  · rename_i m hm
    split at h
    · rename_i hkind
      exact ⟨m, mem_preorder_of_child? hn hm, hkind, Option.some.inj h⟩
    · cases h
  · cases h

/-- The line feeds in a mismatch of a file come from the types in the tags of its functions, from
the texts of its literals, or from those of its identifiers. -/
structure Diagnostic.Breaks (d : Diagnostic) (s : Source) : Prop where
  subject : ¬ OneLine d.subject →
    d.site ≠ .argument ∧ ∃ n ∈ s.root.preorder, n.kind = .identifier ∧ n.text = d.subject
  expected : ¬ OneLine d.expected → (Registry.ofTree s.root).ReturnsType d.expected ∨
    d.site = .argument ∧ (Registry.ofTree s.root).TakesType d.expected
  found : ¬ OneLine d.found → (Registry.ofTree s.root).ReturnsType d.found
  value : ¬ OneLine d.value →
    ∃ n ∈ s.root.preorder, n.kind.literalType?.isSome = true ∧ n.text = d.value

namespace Check

variable {infer : Bool} {s : Source} {cs : List Cursor} {t : TypeName}

theorem Context.Findable.returnsType {ctx : Context} (h : ctx.Findable cs t)
    (ht : ¬ OneLine t) : ctx.signatures.ReturnsType t := by
  rcases h with hbase | hreturns | ⟨-, c, -, -, a, ha, rfl⟩
  · have hall : (BaseType.all.map BaseType.name).all (fun t => decide (OneLine t)) = true := by
      decide
    exact absurd (of_decide_eq_true (List.all_eq_true.mp hall t hbase)) ht
  · exact hreturns
  · exact absurd (Source.oneLine_of_annotation? ha) ht

theorem Context.Expectable.returnsType {ctx : Context} (h : ctx.Expectable cs t)
    (ht : ¬ OneLine t) : ctx.signatures.ReturnsType t := by
  rcases h with hfound | ⟨c, -, -, a, ha, rfl⟩
  · exact hfound.returnsType ht
  · exact absurd (Source.oneLine_of_annotation? ha) ht

theorem Visit.Finds.subject_breaks {known : Tracker} {c : Cursor} {d : Diagnostic}
    (h : (visit (fileContext infer s) known c).Finds (fileContext infer s) known c.node d)
    (hc : c ∈ s.root.cursors) (hsubject : ¬ OneLine d.subject) :
    d.site ≠ .argument ∧ ∃ n ∈ s.root.preorder, n.kind = .identifier ∧ n.text = d.subject := by
  have hnode := (Node.cursors_within hc).node
  have ht := visit_taken (fileContext infer s) known c
  generalize visit (fileContext infer s) known c = v at h ht
  cases h with
  | declaration name value a refused =>
    exact ⟨nofun, Node.exists_of_identifierIn? hnode ht.2.1⟩
  | assignment name declared complex value refused =>
    obtain ⟨_, -, hname, -, -⟩ := ht
    exact ⟨nofun, Node.exists_of_identifierIn? hnode hname⟩
  | argument f arguments param value paired refused =>
    obtain ⟨-, hcalled, -, -⟩ := ht
    obtain ⟨name, -, hfind⟩ := Option.bind_eq_some_iff.mp hcalled
    obtain ⟨g, -, hg⟩ := Registry.exists_of_find?_ofTree hfind
    exact absurd (Cursor.oneLine_of_mem_params hg (List.of_mem_zip paired).1) hsubject

theorem breaks_of_mem_source {d : Diagnostic}
    (h : d ∈ (source infer s).value.result.diagnostics) : d.Breaks s := by
  cases hs : (Directives.ofSource s).skipped with
  | true =>
    rw [source_of_skipped hs] at h
    cases h
  | false =>
    obtain ⟨v, hv, hd⟩ := (mem_source_diagnostics hs).mp h
    obtain ⟨before, after, hcursors, hstate⟩ := exists_of_mem_visits hv
    have hc : v.2 ∈ s.root.cursors := by rw [hcursors]; simp
    have hfinds := Visit.finds_of_mem_reports hd
    have hgenuine := hfinds.genuine hc (hstate ▸ walk_flagged (fileContext infer s) before)
    have htypes := walk_inVocabulary (fileContext infer s) s.root.cursors
    rw [source_of_not_skipped hs] at h
    refine ⟨hfinds.subject_breaks hc, fun ht => ?_, (htypes.found d h).returnsType, fun ht => ?_⟩
    · exact (htypes.expected d h).imp_left (·.returnsType ht)
    · have hvalue : d.value ≠ "" := by
        intro hempty
        rw [hempty] at ht
        exact ht (by decide)
      obtain ⟨_, value, b, -, -, hmem, hkind, -, htext, -⟩ := hgenuine.literal hvalue
      exact ⟨value.unwrap, hmem, by rw [hkind]; rfl, htext.symm⟩

end Check

/-! ## The lines of a run -/

theorem RunResults.length_lines_gcc {r : RunResults} (h : r.diagnostics ≠ []) :
    (lines r.gcc).length = total (fun d => (lines d.gcc).length) r.diagnostics := by
  rw [gcc, length_lines_unlines (by simpa using h), total_map]

/-- A run shows as many lines as mismatches if each of them is on one line. -/
theorem RunResults.length_lines_gcc_eq_iff {r : RunResults} (h : 0 < r.errorCount) :
    (lines r.gcc).length = r.errorCount ↔ ∀ d ∈ r.diagnostics, OneLine d.gcc := by
  rw [errorCount_eq] at h ⊢
  rw [length_lines_gcc (List.length_pos_iff.mp h),
    total_eq_length_iff fun d => by rw [length_lines]; omega]
  simp only [length_lines_eq_one]

/-- How many lines mismatches take. A mismatch of a file whose path has no line feed is on one line
exactly if its name, its types and the text of its value are. A type breaks the line only if it
stands in a tag of a function of the file, as the type that is returned or, where an argument is
expected to have it, as that of a parameter; a value only as the text of a literal of the file, a
name only as that of an identifier. A run with mismatches shows as many lines as it has mismatches
exactly if each of them is on one line. -/
theorem gcc_line_count (infer : Bool) (s : Source) (hpath : OneLine s.path) :
    (∀ d ∈ (Check.source infer s).value.result.diagnostics,
      (OneLine d.gcc ↔
        OneLine d.subject ∧ OneLine d.expected ∧ OneLine d.found ∧ OneLine d.value) ∧
      d.Breaks s) ∧
    ∀ r : RunResults, 0 < r.errorCount →
      ((lines r.gcc).length = r.errorCount ↔ ∀ d ∈ r.diagnostics, OneLine d.gcc) := by
  refine ⟨fun d hd => ?_, fun r => RunResults.length_lines_gcc_eq_iff⟩
  refine ⟨?_, Check.breaks_of_mem_source hd⟩
  rw [d.oneLine_gcc, Check.file_of_mem_source hd]
  exact and_iff_right hpath

/-- A parameter whose type goes on on the next line, and a string that does. -/
def brokenLines : Source :=
  .ofOutline "a.js"
    ("/** @param \x7ba\nb\x7d x */\nfunction f(x) \x7b\x7d\nf(1);\n" ++
      "let n /*: number */ = 'p\\\nq';")
    [.rule "program" "" 0 74 4, .rule "comment" "" 0 21 0,
      .rule "function_declaration" "" 22 38 1, .rule "identifier" "name" 31 32 0,
      .rule "expression_statement" "" 39 44 1, .rule "call_expression" "" 39 43 2,
      .rule "identifier" "function" 39 40 0, .rule "arguments" "arguments" 40 43 1,
      .rule "number" "" 41 42 0, .rule "lexical_declaration" "" 45 74 1,
      .rule "variable_declarator" "" 49 73 3, .rule "identifier" "name" 49 50 0,
      .rule "comment" "" 51 64 0, .rule "string" "value" 67 73 0]

namespace brokenLines

/-- The argument for the parameter. -/
def passed : Diagnostic :=
  { location := ⟨"a.js", 4, 3⟩, subject := "x", expected := "a\nb", found := "number"
    site := .argument, value := "1" }

/-- The declaration with the string. -/
def declared : Diagnostic :=
  { location := ⟨"a.js", 5, 5⟩, subject := "n", expected := "number", found := "string"
    value := "'p\\\nq'" }

/-- The results of a run over the file. -/
def results : RunResults :=
  { files := [(Check.source false brokenLines).value.result] }

end brokenLines

open brokenLines in
/-- Two mismatches take four lines: the type of the parameter breaks one of them, the string the
other. -/
theorem brokenLines_line_count :
    (Check.source false brokenLines).value.result.diagnostics = [passed, declared] ∧
    (lines results.gcc).length = 4 ∧ results.errorCount = 2 ∧
    (Registry.ofTree brokenLines.root).TakesType passed.expected ∧
    (∃ n ∈ brokenLines.root.preorder, n.kind.literalType?.isSome = true ∧
      n.text = declared.value) ∧
    ¬ ∀ d ∈ results.diagnostics, OneLine d.gcc := by
  have hmismatches :
      (Check.source false brokenLines).value.result.diagnostics = [passed, declared] := by
    decide +kernel
  have hresults : results.diagnostics = [passed, declared] :=
    (List.append_nil _).trans hmismatches
  have hlines : (lines results.gcc).length = 4 := by
    rw [RunResults.gcc, hresults]
    decide +kernel
  have herrors : results.errorCount = 2 := by
    rw [results.errorCount_eq, hresults]
    rfl
  obtain ⟨hfile, hrun⟩ := gcc_line_count false brokenLines (by decide)
  have hpassed := (hfile passed (by rw [hmismatches]; simp)).2
  have hdeclared := (hfile declared (by rw [hmismatches]; simp)).2
  refine ⟨hmismatches, hlines, herrors, ?_, hdeclared.value (by decide), fun hall => ?_⟩
  · rcases hpassed.expected (by decide) with ⟨f, hf, hreturns⟩ | ⟨-, htakes⟩
    · have hnone : ∀ f ∈ (Registry.ofTree brokenLines.root).values, f.returns = none := by
        decide +kernel
      rw [hnone f hf] at hreturns
      cases hreturns
    · exact htakes
  · have hcount := (hrun results (by rw [herrors]; decide)).mpr hall
    rw [hlines, herrors] at hcount
    exact absurd hcount (by decide)

end CommentTypes
