import CommentTypes.Proofs.Check.Cutoff
import CommentTypes.Proofs.Workspace.Saved
import CommentTypes.Run.Basic
import CommentTypes.Proofs.Outcome

/-!
# Each file on its own

The results of a run are those of its files, each checked on its own and shown under the path that
it was found by (`files_eq_ok`, `file_of_checkOne`). A run over files gives results unless one of the
paths has a null character (`exists_files_iff`).
-/

namespace CommentTypes

/-! ## Null characters -/

theorem hasNull_iff {path : String} : hasNull path ↔ '\x00' ∈ path.toList := by
  rw [hasNull, List.contains_iff_mem]

/-- The normal form of a path has a null character if the path has one. -/
theorem hasNull_ofString (path : String) : (Path.ofString path).hasNull = hasNull path := by
  have hnormal := Path.normal_ofString path
  have hpieces : '\x00' ∈ path.toList ↔ ∃ l ∈ path.toList.splitOn '/', '\x00' ∈ l :=
    mem_iff_mem_splitOn (by decide)
  rw [Bool.eq_iff_iff, Path.hasNull, hasNull_iff, hasNull_iff, hpieces]
  constructor
  · intro h
    rw [Path.render] at h
    split at h
    · simp at h
    · rw [String.toList_append, List.mem_append, Text.joinWith, String.toList_ofList] at h
      rcases h with h | h
      · have hanchor := hnormal.anchored
        simp only [List.mem_cons, List.not_mem_nil, or_false] at hanchor
        rcases hanchor with heq | heq | heq <;> simp [heq] at h
      · rcases mem_of_mem_intercalate h with h | ⟨l, hl, h⟩
        · simp at h
        · obtain ⟨part, hpart, rfl⟩ := List.mem_map.mp hl
          obtain ⟨cs, hcs, rfl⟩ := List.mem_map.mp (List.mem_filter.mp hpart).1
          rw [String.toList_ofList] at h
          exact ⟨cs, hcs, h⟩
  · rintro ⟨cs, hcs, h⟩
    have hidle : isIdlePart (String.ofList cs) = false := by
      rw [Bool.eq_false_iff]
      intro hidle
      rw [isIdlePart, Bool.or_eq_true, beq_iff_eq, beq_iff_eq, ← String.toList_inj,
        ← String.toList_inj, String.toList_ofList] at hidle
      rcases hidle with rfl | rfl <;> simp at h
    have hpart : String.ofList cs ∈ (Path.ofString path).parts :=
      List.mem_filter.mpr ⟨List.mem_map_of_mem hcs, by simpa using hidle⟩
    have hne : ¬ ((Path.ofString path).anchor = "" ∧ (Path.ofString path).parts = []) :=
      fun hempty => List.ne_nil_of_mem hpart hempty.2
    rw [Path.render, if_neg hne, String.toList_append, List.mem_append, Text.joinWith,
      String.toList_ofList]
    refine .inr (mem_intercalate_of_mem (List.mem_map_of_mem hpart) ?_)
    rwa [String.toList_ofList]

theorem Workspace.readText_eq_nullInPath {w : Workspace} {p : Path} :
    w.readText p = .error .nullInPath ↔ p.hasNull := by
  cases hnull : p.hasNull with
  | true =>
    rw [readText, hnull]
    exact ⟨fun _ => rfl, fun _ => rfl⟩
  | false =>
    refine ⟨fun h => ?_, fun h => absurd h Bool.false_ne_true⟩
    rw [readText_eq hnull] at h
    split at h
    · cases h
    · split at h <;> cases h

namespace Check

theorem file_source (infer : Bool) (s : Source) : (source infer s).value.result.file = s.path := by
  cases h : (Directives.ofSource s).skipped with
  | true => rw [source_of_skipped h]
  | false => rw [source_of_not_skipped h]

theorem file_of_mem_source {infer : Bool} {s : Source} {d : Diagnostic}
    (h : d ∈ (source infer s).value.result.diagnostics) : d.location.file = s.path := by
  cases hs : (Directives.ofSource s).skipped with
  | true =>
    rw [source_of_skipped hs] at h
    cases h
  | false =>
    obtain ⟨v, -, hd⟩ := (mem_source_diagnostics hs).mp h
    have hfinds := Visit.finds_of_mem_reports hd
    generalize visit (fileContext infer s) v.1.bindings v.2 = made at hfinds
    cases hfinds <;> rfl

end Check

namespace Run

variable {s : Setting}

/-! ## One file -/

theorem readSource_eq_nullInPath {w : Workspace} {path shown : String} :
    readSource w path shown = .error .nullInPath ↔ hasNull path := by
  rw [← hasNull_ofString, ← Workspace.readText_eq_nullInPath (w := w), readSource]
  split <;> simp [*]

theorem checkPath_eq_nullInPath {path shown : String} :
    (checkPath s path shown).value = .error .nullInPath ↔ hasNull path := by
  have hsource : readSource s.workspace path shown = .error .nullInPath ↔ hasNull path :=
    readSource_eq_nullInPath
  rw [← hsource, checkPath]
  cases readSource s.workspace path shown with
  | error e =>
    exact ⟨fun h => congrArg _ (Except.error.inj h), fun h => congrArg _ (Except.error.inj h)⟩
  | ok content =>
    refine ⟨fun h => ?_, nofun⟩
    simp only [Logged.value_bind, Logged.value_pure] at h
    cases htext : (Check.text s.config.infer shown content (s.grammar content)).value with
    | error e =>
      rw [htext] at h
      cases h
    | ok o =>
      rw [htext] at h
      cases h

/-- A file whose path has a null character breaks off the run. -/
theorem checkOne_of_hasNull {path : String} (h : hasNull path) :
    (checkOne s path).value = .error .nullInPath := by
  simp only [checkOne, Logged.value_bind, checkPath_eq_nullInPath.mpr h, Logged.value_pure]

/-- Every other file has a result. -/
theorem exists_checkOne {path : String} (h : hasNull path = false) :
    ∃ r, (checkOne s path).value = .ok r := by
  simp only [checkOne, Logged.value_bind]
  split
  · exact ⟨_, rfl⟩
  · rename_i hnull
    rw [checkPath_eq_nullInPath.mp hnull] at h
    cases h
  · exact ⟨_, rfl⟩

/-- The result of a file and what is reported in it have the path that was checked. -/
theorem file_of_checkOne {path : String} {r : FileResult} (h : (checkOne s path).value = .ok r) :
    r.file = path ∧ ∀ d ∈ r.diagnostics, d.location.file = path := by
  simp only [checkOne, Logged.value_bind] at h
  split at h
  · rename_i o ho
    cases h
    obtain ⟨content, rfl⟩ := Check.checkPath_eq_ok ho
    exact ⟨Check.file_source .., fun d hd => Check.file_of_mem_source hd⟩
  · cases h
  · cases h
    exact ⟨rfl, nofun⟩

/-! ## Many files -/

theorem inTurn_value (fs : List String) :
    (inTurn s fs).value = fs.mapM fun f => (checkOne s f).value := by
  induction fs with
  | nil => rfl
  | cons f fs ih =>
    rw [inTurn, Logged.value_bind, List.mapM_cons]
    cases (checkOne s f).value with
    | error e => rfl
    | ok r =>
      simp only [Logged.value_bind, ih]
      cases fs.mapM fun f => (checkOne s f).value <;> rfl

theorem mapM_loop_value {α β : Type} (f : α → Logged β) (l : List α) (done : List β) :
    (List.mapM.loop f l done).value = done.reverse ++ l.map fun a => (f a).value := by
  induction l generalizing done with
  | nil => rw [List.mapM.loop, Logged.value_pure, List.map_nil, List.append_nil]
  | cons a l ih =>
    rw [List.mapM.loop, Logged.value_bind, ih, List.reverse_cons, List.append_assoc, List.map_cons,
      List.singleton_append]

theorem together_value (fs : List String) :
    (together s fs).value = fs.mapM fun f => (checkOne s f).value := by
  have hvalues : (fs.mapM (checkOne s)).value = fs.map fun f => (checkOne s f).value :=
    mapM_loop_value ..
  rw [together, Logged.value_bind, Logged.value_pure, hvalues, List.mapM_map]
  rfl

theorem files_value (fs : List String) :
    (files s fs).value =
      (fs.mapM fun f => (checkOne s f).value).map (tally (workersFor s.config fs)) := by
  rw [files]
  split
  · simp only [Logged.value_bind, Logged.value_pure, inTurn_value]
  · simp only [Logged.value_bind, Logged.value_pure, together_value]

/-- One after the other or with several workers, the results of a run are those of its files. -/
theorem files_eq_ok {fs : List String} {r : RunResults} :
    (files s fs).value = .ok r ↔
      ∃ rs, (fs.map fun f => (checkOne s f).value) = rs.map .ok ∧
        tally (workersFor s.config fs) rs = r := by
  rw [files_value]
  constructor
  · intro h
    cases hrs : fs.mapM fun f => (checkOne s f).value with
    | error e =>
      rw [hrs] at h
      cases h
    | ok rs =>
      rw [hrs] at h
      exact ⟨rs, mapM_eq_ok.mp hrs, Except.ok.inj h⟩
  · rintro ⟨rs, hrs, rfl⟩
    rw [mapM_eq_ok.mpr hrs]
    rfl

theorem paths_value (ps : List String) :
    (paths s ps).value = match s.workspace.discover? s.config ps with
      | none => .error .deepDirectories
      | some found => (files s found).value := by
  rw [paths, Logged.value_bind, discover]
  cases s.workspace.discover? s.config ps <;> rfl

/-- A run over files has results unless a path has a null character. -/
theorem exists_files_iff {fs : List String} :
    (∃ r, (files s fs).value = .ok r) ↔ ∀ f ∈ fs, hasNull f = false := by
  constructor
  · rintro ⟨r, h⟩ f hf
    obtain ⟨rs, hrs, -⟩ := files_eq_ok.mp h
    have hmem : (checkOne s f).value ∈ rs.map Except.ok := hrs ▸ List.mem_map_of_mem hf
    obtain ⟨x, -, hx⟩ := List.mem_map.mp hmem
    refine Bool.eq_false_iff.mpr fun hnull => ?_
    rw [checkOne_of_hasNull hnull] at hx
    cases hx
  · intro h
    obtain ⟨rs, hrs⟩ := exists_map_ok fun f hf => exists_checkOne (s := s) (h f hf)
    exact ⟨_, files_eq_ok.mpr ⟨rs, hrs, rfl⟩⟩

end Run

end CommentTypes
