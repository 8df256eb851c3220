import CommentTypes.Command.Session
import CommentTypes.Proofs.Run.Each
import CommentTypes.Proofs.Workspace.Discovery

/-!
# What the results of a run add up to

A run has one result for each file that its paths stand for, in that order and under that path. The
mismatches are counted alike in the results, in the report and by the exit code, whatever the mix of
files that match, do not match, are skipped and cannot be read (`run_accounting`).

A path is a text of Unicode characters, so the file system can be asked for it unless it has a null
character. Such a path is not counted: no file can have it, and it breaks off the run with the
results of all other files. Nothing else does, but for the limit of walks where there is one.
-/

namespace CommentTypes

/-- The number of entries in the list of errors of a file's entry in a report. -/
def Json.errorEntries (entry : Json) : Nat :=
  match entry.field? "errors" with
  | some (.arr items) => items.length
  | _ => 0

namespace RunResults

/-! ## Counting mismatches -/

theorem length_flatMap_diagnostics (files : List FileResult) :
    (files.flatMap FileResult.diagnostics).length = total FileResult.errorCount files := by
  induction files with
  | nil => rfl
  | cons x files ih => rw [List.flatMap_cons, List.length_append, ih, total_cons]; rfl

theorem errorCount_eq (r : RunResults) : r.errorCount = r.diagnostics.length :=
  (length_flatMap_diagnostics r.files).symm

theorem errorEntries_entry (x : FileResult) : x.entry.errorEntries = x.errorCount := by
  have hfield : x.entry.field? "errors" = some (.arr (x.diagnostics.map Diagnostic.entry)) := rfl
  rw [Json.errorEntries, hfield]
  exact List.length_map ..

theorem total_errorEntries_report (r : RunResults) :
    total Json.errorEntries r.report = r.errorCount := by
  rw [report, total_map, errorCount]
  induction r.files with
  | nil => rfl
  | cons x files ih =>
    cases hx : x.diagnostics with
    | nil =>
      have hcount : x.errorCount = 0 := by rw [FileResult.errorCount, hx]; rfl
      rw [List.filter_cons_of_neg (by simp [hx]), total_cons, hcount, Nat.zero_add, ih]
    | cons d ds =>
      rw [List.filter_cons_of_pos (by simp [hx]), total_cons, total_cons, errorEntries_entry, ih]

theorem report_files (r : RunResults) :
    r.report.map (Json.field? "file") =
      (r.files.filter (!·.diagnostics.isEmpty)).map fun x => some (.str x.file) := by
  rw [report, List.map_map]
  rfl

/-! ## Mismatches by file -/

theorem filter_eq_of_file {file : String} {ds : List Diagnostic}
    (h : ∀ d ∈ ds, d.location.file = file) (other : String) :
    (ds.filter fun d => d.location.file = other) = if file = other then ds else [] := by
  split
  · rename_i heq
    exact List.filter_eq_self.mpr fun d hd => decide_eq_true ((h d hd).trans heq)
  · rename_i hne
    exact List.filter_eq_nil_iff.mpr fun d hd heq =>
      hne ((h d hd).symm.trans (of_decide_eq_true heq))

/-- Where the results have different paths and each mismatch the path of its file, the mismatches of a
file are those in its result. -/
theorem byFile_eq {r : RunResults} (hnodup : (r.files.map FileResult.file).Nodup)
    (hfile : ∀ x ∈ r.files, ∀ d ∈ x.diagnostics, d.location.file = x.file) {x : FileResult}
    (hx : x ∈ r.files) : r.byFile x.file = x.diagnostics := by
  rw [byFile, diagnostics]
  generalize r.files = files at hnodup hfile hx
  induction files with
  | nil => cases hx
  | cons y files ih =>
    obtain ⟨hy, hfiles⟩ := List.nodup_cons.mp hnodup
    obtain ⟨hfirst, hrest⟩ := List.forall_mem_cons.mp hfile
    rw [List.flatMap_cons, List.filter_append, filter_eq_of_file hfirst]
    rcases List.mem_cons.mp hx with rfl | hx
    · have hothers : ((files.flatMap FileResult.diagnostics).filter fun d =>
          d.location.file = x.file) = [] := by
        refine List.filter_eq_nil_iff.mpr fun d hd heq => hy ?_
        obtain ⟨z, hz, hd⟩ := List.mem_flatMap.mp hd
        rw [← of_decide_eq_true heq, hrest z hz d hd]
        exact List.mem_map_of_mem hz
      rw [if_pos rfl, hothers, List.append_nil]
    · have hne : y.file ≠ x.file := fun heq => hy (heq ▸ List.mem_map_of_mem hx)
      rw [if_neg hne, List.nil_append, ih hfiles hrest hx]

/-! ## Exit codes -/

theorem report_eq_nil_iff (r : RunResults) : r.report = [] ↔ r.diagnostics = [] := by
  rw [report, List.map_eq_nil_iff, List.filter_eq_nil_iff, diagnostics, List.flatMap_eq_nil_iff]
  simp

theorem hasErrors_iff (r : RunResults) : r.hasErrors ↔ r.report ≠ [] := by
  rw [hasErrors, decide_eq_true_iff, errorCount_eq, List.length_pos_iff]
  exact not_congr r.report_eq_nil_iff.symm

theorem hasFailures_iff (r : RunResults) :
    r.hasFailures ↔ ∃ x ∈ r.files, x.status = .parseError := by
  rw [hasFailures, failures]
  simp

theorem forall_ok_iff (r : RunResults) :
    (∀ x ∈ r.files, x.ok) ↔ ¬ r.hasErrors ∧ ¬ r.hasFailures := by
  rw [hasErrors_iff, hasFailures_iff, Decidable.not_not, report_eq_nil_iff, diagnostics,
    List.flatMap_eq_nil_iff]
  constructor
  · intro h
    refine ⟨fun x hx => ?_, fun ⟨x, hx, hstatus⟩ => ?_⟩
    · have hok := h x hx
      simp only [FileResult.ok, Bool.and_eq_true, List.isEmpty_iff] at hok
      exact hok.2
    · have hok := h x hx
      simp [FileResult.ok, hstatus] at hok
  · rintro ⟨hnil, hread⟩ x hx
    have hstatus : x.status ≠ .parseError := fun hstatus => hread ⟨x, hx, hstatus⟩
    simp [FileResult.ok, hstatus, hnil x hx]

end RunResults

namespace Command

variable {o : Options} {w : Workspace} {r : RunResults}

/-- The exit code says whether all files are in order, whether the report has an entry, and else
whether a file could not be checked. -/
structure Tells (exit : ExitCode) (r : RunResults) : Prop where
  clean : exit = .clean ↔ ∀ x ∈ r.files, x.ok
  mismatch : exit = .mismatch ↔ r.report ≠ []
  failure : exit = .failure ↔ r.diagnostics = [] ∧ ∃ x ∈ r.files, x.status = .parseError

theorem exitCode_tells (r : RunResults) : Tells (exitCode r) r := by
  have hnil : r.diagnostics = [] ↔ ¬ r.hasErrors := by
    rw [r.hasErrors_iff, Decidable.not_not, r.report_eq_nil_iff]
  constructor
  · rw [r.forall_ok_iff, exitCode]
    cases r.hasErrors <;> cases r.hasFailures <;> decide
  · rw [← r.hasErrors_iff, exitCode]
    cases r.hasErrors <;> cases r.hasFailures <;> decide
  · rw [hnil, ← r.hasFailures_iff, exitCode]
    cases r.hasErrors <;> cases r.hasFailures <;> decide

/-! ## Sessions -/

theorem check_value {g : Grammar} {c : Config} (hconfig : (o.loadConfig w).value = .ok c)
    (hexclude : o.blankExclude = false) :
    (o.check g w).value = (o.checkFiles { grammar := g, workspace := w, config := c }).value := by
  rw [Options.check, Logged.value_bind, hconfig]
  simp only [hexclude, Bool.false_eq_true, if_false]

theorem checkFiles_of_ok {s : Setting} (h : (Run.paths s o.paths).value = .ok r)
    (hne : r.files ≠ []) : (o.checkFiles s).value = .ok r := by
  have hfiles : r.files.isEmpty = false := by simpa using hne
  simp only [Options.checkFiles, Logged.value_bind, h, hfiles, Bool.false_eq_true, if_false,
    Logged.value_pure]

theorem checkFiles_of_error {s : Setting} {e : Run.Broken}
    (h : (Run.paths s o.paths).value = .error e) : ∃ why, (o.checkFiles s).value = .error why := by
  rw [Options.checkFiles, Logged.value_bind, h]
  cases e <;> exact ⟨_, rfl⟩

/-- A session without results fails and prints nothing. -/
theorem finish_of_error {elapsed : String} {checked : Logged (Except Failure RunResults)}
    {why : Failure} (h : checked.value = .error why) :
    (o.finish w elapsed checked).exit = .failure ∧ (o.finish w elapsed checked).output = "" := by
  rw [Options.finish, h]
  exact ⟨rfl, rfl⟩

/-- A session with results ends with their exit code, if the report could be written. -/
theorem finish_exit {elapsed : String} {checked : Logged (Except Failure RunResults)}
    (h : checked.value = .ok r)
    (hreport : ∀ destination, given o.report = some destination →
      ∃ p, (writeReport w r (.ofString destination)).2 = .ok p) :
    (o.finish w elapsed checked).exit = exitCode r := by
  rw [Options.finish, h]
  show (o.conclude w { r with elapsed := some elapsed }).value.2 = exitCode r
  rw [Options.conclude, Logged.value_bind]
  split
  · rfl
  · rename_i destination hgiven
    obtain ⟨p, hp⟩ := hreport destination hgiven
    -- The report does not tell how long the run took.
    have hsame : writeReport w { r with elapsed := some elapsed } (.ofString destination) =
        writeReport w r (.ofString destination) := rfl
    obtain ⟨saved, hsaved⟩ : ∃ saved, writeReport w r (.ofString destination) = (saved, .ok p) :=
      ⟨_, Prod.ext rfl hp⟩
    rw [saveReport, hsame, hsaved]
    rfl

end Command

/-! ## Runs -/

/-- The results of a run, counted in each of the ways in which they are shown. -/
structure RunResults.Accounted (r : RunResults) : Prop where
  byFile : ∀ x ∈ r.files, r.byFile x.file = x.diagnostics
  errors : r.errorCount = r.diagnostics.length
  entries : total Json.errorEntries r.report = r.errorCount
  listed : r.report.map (Json.field? "file") =
    (r.files.filter (!·.diagnostics.isEmpty)).map fun x => some (.str x.file)

namespace Run

variable {s : Setting} {ps : List String} {r : RunResults}

theorem paths_eq_ok (h : (paths s ps).value = .ok r) :
    ∃ found, s.workspace.discover? s.config ps = some found ∧
      (found.map fun f => (checkOne s f).value) = r.files.map .ok := by
  rw [paths_value] at h
  cases hfound : s.workspace.discover? s.config ps with
  | none =>
    rw [hfound] at h
    cases h
  | some found =>
    rw [hfound] at h
    obtain ⟨rs, hrs, rfl⟩ := files_eq_ok.mp h
    exact ⟨found, rfl, hrs⟩

theorem exists_paths_iff :
    (∃ r, (paths s ps).value = .ok r) ↔
      ∃ found, s.workspace.discover? s.config ps = some found ∧ ∀ f ∈ found, hasNull f = false := by
  rw [paths_value]
  cases s.workspace.discover? s.config ps with
  | none => exact ⟨nofun, nofun⟩
  | some found =>
    rw [exists_files_iff]
    exact ⟨fun h => ⟨found, rfl, h⟩, fun ⟨_, hfound, h⟩ => Option.some.inj hfound ▸ h⟩

/-- Results that belong to some paths have these paths, in order. -/
theorem map_file_eq {found : List String} {rs : List FileResult}
    (h : (found.map fun f => (checkOne s f).value) = rs.map .ok) :
    rs.map FileResult.file = found := by
  induction found generalizing rs with
  | nil => rw [List.map_eq_nil_iff.mp h.symm, List.map_nil]
  | cons f found ih =>
    cases rs with
    | nil => cases h
    | cons x rs =>
      rw [List.map_cons, List.map_cons, List.cons.injEq] at h
      rw [List.map_cons, (file_of_checkOne h.1).1, ih h.2]

theorem accounted (h : (paths s ps).value = .ok r) : r.Accounted := by
  obtain ⟨found, hfound, hrs⟩ := paths_eq_ok h
  refine ⟨fun x hx => ?_, r.errorCount_eq, r.total_errorEntries_report, r.report_files⟩
  refine RunResults.byFile_eq ?_ (fun y hy d hd => ?_) hx
  · rw [map_file_eq hrs, ← (Workspace.discover?_eq_some.mp hfound).2]
    exact nodup_eraseDups _
  · have hmem : Except.ok y ∈ found.map fun f => (checkOne s f).value :=
      hrs ▸ List.mem_map_of_mem hy
    obtain ⟨f, -, hf⟩ := List.mem_map.mp hmem
    obtain ⟨hfile, hplaces⟩ := file_of_checkOne hf
    rw [hfile]
    exact hplaces d hd

end Run

/-- A run has results exactly if its paths stand for files none of which has a null character in its
path; where walks are not limited, paths always stand for files. There is one result for each of the
files, in their order and under their path, and the results add up to the same number of mismatches
however they are counted. A session that has results and can write the report asked for ends with the
exit code that tells of them; one in which the run has no results fails and prints nothing. -/
theorem run_accounting (s : Setting) (ps : List String) :
    ((∃ r, (Run.paths s ps).value = .ok r) ↔
      ∃ found, s.workspace.discover? s.config ps = some found ∧
        ∀ f ∈ found, hasNull f = false) ∧
    (s.workspace.limits.levels = none →
      s.workspace.discover? s.config ps = some (s.workspace.discover s.config ps)) ∧
    (∀ r, (Run.paths s ps).value = .ok r →
      (∃ found, s.workspace.discover? s.config ps = some found ∧
        r.files.map FileResult.file = found ∧
        (found.map fun f => (Run.checkOne s f).value) = r.files.map .ok) ∧
      r.Accounted) ∧
    ∀ (o : Command.Options) (elapsed : String), o.paths = ps →
      (o.loadConfig s.workspace).value = .ok s.config → o.blankExclude = false →
      (∀ r, (Run.paths s ps).value = .ok r → r.files ≠ [] →
        (∀ destination, Command.given o.report = some destination →
          ∃ p, (Command.writeReport s.workspace r (.ofString destination)).2 = .ok p) →
        Command.Tells (o.finish s.workspace elapsed (o.check s.grammar s.workspace)).exit r) ∧
      ((¬ ∃ r, (Run.paths s ps).value = .ok r) →
        (o.finish s.workspace elapsed (o.check s.grammar s.workspace)).exit = .failure ∧
        (o.finish s.workspace elapsed (o.check s.grammar s.workspace)).output = "") := by
  refine ⟨Run.exists_paths_iff, fun h => Workspace.discover?_of_unlimited h ps, fun r h => ?_,
    fun o elapsed hpaths hconfig hexclude => ⟨?_, fun hnone => ?_⟩⟩
  · obtain ⟨found, hfound, hrs⟩ := Run.paths_eq_ok h
    exact ⟨⟨found, hfound, Run.map_file_eq hrs, hrs⟩, Run.accounted h⟩
  · intro r h hne hreport
    have hcheck := (Command.check_value (g := s.grammar) hconfig hexclude).trans
      (Command.checkFiles_of_ok (hpaths ▸ h) hne)
    rw [Command.finish_exit hcheck hreport]
    exact Command.exitCode_tells r
  · cases hvalue : (Run.paths s ps).value with
    | ok r => exact absurd ⟨r, hvalue⟩ hnone
    | error e =>
      subst hpaths
      obtain ⟨why, hwhy⟩ := Command.checkFiles_of_error hvalue
      exact Command.finish_of_error ((Command.check_value hconfig hexclude).trans hwhy)

/-- A workspace with one file, in which a value does not match. -/
def oneMismatch : Setting :=
  { grammar := .ofTrees [(Check.threeSites.text, Check.threeSites.root)]
    workspace :=
      { root := .dir [("a.js", .file (Text.Utf8.encode Check.threeSites.text.toList))] } }

/-- The file and one that is not there, with a report. -/
def mixedOptions : Command.Options :=
  { paths := ["a.js", "gone.js"], report := some "out.json" }

/-- The file and a path with a null character. -/
def nullOptions : Command.Options :=
  { paths := ["a.js", "a\x00b.js"] }

/-- The mismatch decides about the exit code next to a file that is not there, and is not seen next to
a path with a null character. -/
theorem run_accounting_oneMismatch :
    (mixedOptions.finish oneMismatch.workspace "0.000s"
      (mixedOptions.check oneMismatch.grammar oneMismatch.workspace)).exit = .mismatch ∧
    (∃ r, (Run.paths oneMismatch ["a.js", "gone.js"]).value = .ok r ∧ r.report ≠ [] ∧
      r.files.map FileResult.file = ["a.js", "gone.js"]) ∧
    (nullOptions.finish oneMismatch.workspace "0.000s"
      (nullOptions.check oneMismatch.grammar oneMismatch.workspace)).exit = .failure := by
  have hfound : oneMismatch.workspace.discover? oneMismatch.config ["a.js", "gone.js"] =
      some ["a.js", "gone.js"] := by decide +kernel
  have hnull : oneMismatch.workspace.discover? oneMismatch.config ["a.js", "a\x00b.js"] =
      some ["a.js", "a\x00b.js"] := by decide +kernel
  have hexit : (mixedOptions.finish oneMismatch.workspace "0.000s"
      (mixedOptions.check oneMismatch.grammar oneMismatch.workspace)).exit = .mismatch := by
    decide +kernel
  obtain ⟨hruns, -, hresults, hends⟩ := run_accounting oneMismatch ["a.js", "gone.js"]
  obtain ⟨r, hr⟩ := hruns.mpr ⟨_, hfound, by decide⟩
  obtain ⟨⟨found, hfound', hfiles, -⟩, -⟩ := hresults r hr
  rw [hfound] at hfound'
  cases hfound'
  have hne : r.files ≠ [] := fun h => by rw [h] at hfiles; cases hfiles
  have htells := (hends mixedOptions "0.000s" rfl rfl rfl).1 r hr hne fun destination hgiven => by
    cases hgiven
    exact ⟨⟨"", ["out.json"]⟩, rfl⟩
  obtain ⟨hruns', -, -, hends'⟩ := run_accounting oneMismatch ["a.js", "a\x00b.js"]
  have hbroken : ¬ ∃ r, (Run.paths oneMismatch ["a.js", "a\x00b.js"]).value = .ok r := by
    intro hr
    obtain ⟨found, hfound, hnone⟩ := hruns'.mp hr
    rw [hnull] at hfound
    cases hfound
    exact absurd (hnone "a\x00b.js" (by simp)) (by decide)
  exact ⟨hexit, ⟨r, hr, htells.mismatch.mp hexit, hfiles⟩,
    ((hends' nullOptions "0.000s" rfl rfl rfl).2 hbroken).1⟩

end CommentTypes
