import CommentTypes.Proofs.Run.Accounting
import Mathlib.Data.List.Perm.Subperm

/-!
# A pool of workers

Several workers check the files of a run at the same time. Each takes up the first file that nobody
has taken up yet, and puts what comes of it into the slot of that file; the slots are read in the
order of the files. In which order the workers take up files and are done with them is not known: a
list of events says it.

Whatever the events are, as long as they can happen, what is read from the slots is what comes of
the files one after the other, and they can always go on until it can be read
(`pool_equals_one_job`). `Pool.Consistent` is the invariant: it says how the slots, what the workers
have in hand and the files still to be taken up share the files out.
-/

namespace CommentTypes

/-- The setting with another number of jobs. -/
def Setting.withJobs (s : Setting) (jobs : Int) : Setting :=
  { s with config := { s.config with jobs } }

namespace Run

/-! ## Events -/

/-- Something that happens in a pool of workers. Files are told by their place in the list. -/
inductive Event (workers : Nat) where
  /-- The worker takes up the file. -/
  | start (worker : Fin workers) (file : Nat)
  /-- The worker is done with the file. -/
  | finish (worker : Fin workers) (file : Nat)

namespace Event

variable {k : Nat} {es : List (Event k)} {w : Fin k} {i : Nat}

/-- The file that is taken up. -/
def started? : Event k → Option Nat
  | start _ i => some i
  | finish _ _ => none

/-- The file that is done. -/
def finished? : Event k → Option Nat
  | start _ _ => none
  | finish _ i => some i

/-- The files that are taken up, in that order. -/
def started (es : List (Event k)) : List Nat :=
  es.filterMap started?

/-- The files that are done, in that order. -/
def finished (es : List (Event k)) : List Nat :=
  es.filterMap finished?

theorem started_concat_start : started (es ++ [start w i]) = started es ++ [i] :=
  List.filterMap_append

theorem finished_concat_start : finished (es ++ [start w i]) = finished es :=
  List.filterMap_append.trans (List.append_nil _)

theorem started_concat_finish : started (es ++ [finish w i]) = started es :=
  List.filterMap_append.trans (List.append_nil _)

theorem finished_concat_finish : finished (es ++ [finish w i]) = finished es ++ [i] :=
  List.filterMap_append

theorem length_eq (es : List (Event k)) :
    es.length = (started es).length + (finished es).length := by
  induction es with
  | nil => rfl
  | cons e es ih =>
    cases e with
    | start w i =>
      show es.length + 1 = (started es).length + 1 + (finished es).length
      omega
    | finish w i =>
      show es.length + 1 = (started es).length + ((finished es).length + 1)
      omega

/-- Each of so many files is taken up once, in order, and done once. -/
structure EachOnce (es : List (Event k)) (files : Nat) : Prop where
  started : started es = List.range files
  finished : (finished es).Perm (List.range files)

end Event

/-! ## Pools -/

/-- A pool of workers at work on some files. -/
structure Pool (workers : Nat) where
  /-- How many files were taken up. -/
  taken : Nat := 0
  /-- The file that each worker has in hand. -/
  hands : Fin workers → Option Nat := fun _ => none
  /-- What came of the files that are done. -/
  slots : Nat → Option (Except Broken FileResult) := fun _ => none

/-- What comes of some files, read from their slots in order, up to the first that breaks off the
run. An empty slot has to be waited for. -/
def collect : List (Option (Except Broken FileResult)) → Option (Except Broken (List FileResult))
  | [] => some (.ok [])
  | none :: _ => none
  | some (.error e) :: _ => some (.error e)
  | some (.ok r) :: rest => (collect rest).map fun outcome => outcome.map (r :: ·)

namespace Pool

variable {k : Nat}

/-- A worker takes up the next file. -/
def take (p : Pool k) (w : Fin k) : Pool k :=
  { p with
    taken := p.taken + 1
    hands := fun v => if v = w then some p.taken else p.hands v }

/-- A worker is done with a file, and puts what comes of it into its slot. -/
def put (s : Setting) (fs : List String) (p : Pool k) (w : Fin k) (i : Nat) : Pool k :=
  { p with
    hands := fun v => if v = w then none else p.hands v
    slots := fun j => if j = i then fs[i]?.map fun f => (checkOne s f).value else p.slots j }

/-- The pool after an event, if it can happen: a worker with empty hands takes up the next file, or
a worker with a file in hand is done with it. -/
def step (s : Setting) (fs : List String) (p : Pool k) : Event k → Option (Pool k)
  | .start w i =>
    if p.hands w = none ∧ i = p.taken ∧ i < fs.length then some (p.take w) else none
  | .finish w i => if p.hands w = some i then some (p.put s fs w i) else none

/-- The pool after some events, if they can happen one after the other. -/
def run (s : Setting) (fs : List String) (p : Pool k) : List (Event k) → Option (Pool k)
  | [] => some p
  | e :: es => (p.step s fs e).bind fun q => q.run s fs es

/-- What comes of the files, as soon as the slots tell it. -/
def outcome? (fs : List String) (p : Pool k) : Option (Except Broken (List FileResult)) :=
  collect ((List.range fs.length).map p.slots)

variable {s : Setting} {fs : List String} {es rest : List (Event k)} {p q : Pool k} {e : Event k}

theorem run_append : p.run s fs (es ++ rest) = (p.run s fs es).bind fun q => q.run s fs rest := by
  induction es generalizing p with
  | nil => rfl
  | cons e es ih =>
    show (p.step s fs e).bind _ = ((p.step s fs e).bind _).bind _
    rw [Option.bind_assoc]
    exact congrArg _ (funext fun r => ih)

/-! ## What events keep -/

/-- The pool is where these events lead to: the files that were taken up are the first ones, each of
them is done or in the hands of one worker, and the slots of those that are done are filled. -/
structure Consistent (s : Setting) (fs : List String) (es : List (Event k)) (p : Pool k) :
    Prop where
  started : Event.started es = List.range p.taken
  taken_le : p.taken ≤ fs.length
  once : (Event.finished es).Nodup
  finished_lt : ∀ i ∈ Event.finished es, i < p.taken
  inHand : ∀ w i, p.hands w = some i → i < p.taken ∧ i ∉ Event.finished es
  alone : ∀ v w i, p.hands v = some i → p.hands w = some i → v = w
  covered : ∀ i < p.taken, i ∈ Event.finished es ∨ ∃ w, p.hands w = some i
  filled : ∀ i ∈ Event.finished es, p.slots i = fs[i]?.map fun f => (checkOne s f).value
  empty : ∀ i, i ∉ Event.finished es → p.slots i = none

namespace Consistent

theorem initial : Consistent s fs [] ({} : Pool k) where
  started := rfl
  taken_le := Nat.zero_le _
  once := List.nodup_nil
  finished_lt := nofun
  inHand := nofun
  alone := nofun
  covered := nofun
  filled := nofun
  empty _ _ := rfl

theorem take (h : Consistent s fs es p) {w : Fin k} (hfree : p.hands w = none)
    (hmore : p.taken < fs.length) : Consistent s fs (es ++ [.start w p.taken]) (p.take w) := by
  -- The file taken up is none of those before it, whether they are done or in hand.
  have hnew : p.taken ∉ Event.finished es := fun hmem => Nat.lt_irrefl _ (h.finished_lt _ hmem)
  have hheld : ∀ v, p.hands v ≠ some p.taken := fun v hv => Nat.lt_irrefl _ (h.inHand v _ hv).1
  constructor <;> simp only [Event.started_concat_start, Event.finished_concat_start, Pool.take]
  case started => rw [h.started, List.range_succ]
  case taken_le => exact hmore
  case once => exact h.once
  case finished_lt => exact fun i hi => Nat.lt_succ_of_lt (h.finished_lt i hi)
  case inHand =>
    intro v i hv
    split at hv
    · cases hv
      exact ⟨Nat.lt_succ_self _, hnew⟩
    · exact ⟨Nat.lt_succ_of_lt (h.inHand v i hv).1, (h.inHand v i hv).2⟩
  case alone =>
    intro u v i hu hv
    split at hu <;> split at hv
    · rename_i huw hvw
      rw [huw, hvw]
    · cases hu
      exact absurd hv (hheld v)
    · cases hv
      exact absurd hu (hheld u)
    · exact h.alone u v i hu hv
  case covered =>
    intro i hi
    rcases Nat.lt_succ_iff_lt_or_eq.mp hi with hlt | rfl
    · refine (h.covered i hlt).imp_right fun ⟨v, hv⟩ => ⟨v, ?_⟩
      rw [if_neg fun hvw => ?_, hv]
      rw [hvw, hfree] at hv
      cases hv
    · exact .inr ⟨w, if_pos rfl⟩
  case filled => exact h.filled
  case empty => exact h.empty

theorem put (h : Consistent s fs es p) {w : Fin k} {i : Nat} (hheld : p.hands w = some i) :
    Consistent s fs (es ++ [.finish w i]) (p.put s fs w i) := by
  obtain ⟨hlt, hnew⟩ := h.inHand w i hheld
  constructor <;>
    simp only [Event.started_concat_finish, Event.finished_concat_finish, List.mem_append,
      List.mem_singleton, Pool.put]
  case started => exact h.started
  case taken_le => exact h.taken_le
  case once =>
    refine List.nodup_append.mpr ⟨h.once, by simp, fun a ha b hb => ?_⟩
    rintro rfl
    exact hnew (List.mem_singleton.mp hb ▸ ha)
  case finished_lt => exact fun j hj => hj.elim (h.finished_lt j) fun hji => hji ▸ hlt
  case inHand =>
    intro v j hv
    split at hv
    · cases hv
    · rename_i hvw
      refine ⟨(h.inHand v j hv).1, fun hj => hj.elim (h.inHand v j hv).2 fun hji => hvw ?_⟩
      exact h.alone v w i (hji ▸ hv) hheld
  case alone =>
    intro u v j hu hv
    split at hu
    · cases hu
    · split at hv
      · cases hv
      · exact h.alone u v j hu hv
  case covered =>
    intro j hj
    rcases h.covered j hj with hdone | ⟨v, hv⟩
    · exact .inl (.inl hdone)
    · by_cases hvw : v = w
      · rw [hvw, hheld] at hv
        exact .inl (.inr (Option.some.inj hv).symm)
      · exact .inr ⟨v, by rw [if_neg hvw, hv]⟩
  case filled =>
    intro j hj
    split
    · rename_i hji
      rw [hji]
    · rename_i hji
      exact h.filled j (hj.resolve_right hji)
  case empty =>
    intro j hj
    rw [if_neg fun hji => hj (.inr hji)]
    exact h.empty j fun hdone => hj (.inl hdone)

theorem step (h : Consistent s fs es p) (hstep : p.step s fs e = some q) :
    Consistent s fs (es ++ [e]) q := by
  cases e with
  | start w i =>
    obtain ⟨⟨hfree, rfl, hmore⟩, hq⟩ := Option.ite_none_right_eq_some.mp hstep
    cases hq
    exact h.take hfree hmore
  | finish w i =>
    obtain ⟨hheld, hq⟩ := Option.ite_none_right_eq_some.mp hstep
    cases hq
    exact h.put hheld

theorem run (h : Consistent s fs es p) (hrun : p.run s fs rest = some q) :
    Consistent s fs (es ++ rest) q := by
  induction rest generalizing es p with
  | nil =>
    cases hrun
    rw [List.append_nil]
    exact h
  | cons e rest ih =>
    obtain ⟨r, hstep, hrest⟩ := Option.bind_eq_some_iff.mp hrun
    have hq := ih (h.step hstep) hrest
    rwa [List.append_assoc, List.singleton_append] at hq

/-! ## What is read from the slots -/

theorem slot_eq (h : Consistent s fs es p) {i : Nat} {f : String} (hf : fs[i]? = some f) :
    p.slots i = none ∨ p.slots i = some (checkOne s f).value := by
  by_cases hi : i ∈ Event.finished es
  · right
    rw [h.filled i hi, hf, Option.map_some]
  · exact .inl (h.empty i hi)

theorem isSome_slot (h : Consistent s fs es p) {i : Nat} :
    (p.slots i).isSome ↔ i ∈ Event.finished es := by
  by_cases hi : i ∈ Event.finished es
  · have hlt : i < fs.length := Nat.lt_of_lt_of_le (h.finished_lt i hi) h.taken_le
    simp [h.filled i hi, hi, hlt]
  · simp [h.empty i hi, hi]

end Consistent

end Pool

theorem collect_eq_mapM {verdict : String → Except Broken FileResult} {fs : List String}
    {slots : Nat → Option (Except Broken FileResult)} {outcome : Except Broken (List FileResult)}
    (hslots : ∀ i f, fs[i]? = some f → slots i = none ∨ slots i = some (verdict f))
    (h : collect ((List.range fs.length).map slots) = some outcome) :
    fs.mapM verdict = outcome := by
  induction fs generalizing slots outcome with
  | nil =>
    cases h
    rfl
  | cons f fs ih =>
    rw [List.length_cons, List.range_succ_eq_map, List.map_cons, List.map_map] at h
    rw [List.mapM_cons]
    rcases hslots 0 f rfl with hslot | hslot
    · rw [hslot] at h
      cases h
    · rw [hslot] at h
      cases hv : verdict f with
      | error e =>
        rw [hv] at h
        cases h
        rfl
      | ok r =>
        rw [hv] at h
        obtain ⟨others, hothers, rfl⟩ := Option.map_eq_some_iff.mp h
        rw [ih (fun i g hg => hslots (i + 1) g hg) hothers]
        cases others <;> rfl

theorem isSome_of_collect_eq_ok {slots : List (Option (Except Broken FileResult))}
    {rs : List FileResult} (h : collect slots = some (.ok rs)) : ∀ slot ∈ slots, slot.isSome := by
  induction slots generalizing rs with
  | nil => exact nofun
  | cons slot slots ih =>
    match slot with
    | none => cases h
    | some (.error e) => cases h
    | some (.ok r) =>
      obtain ⟨others, hothers, hrs⟩ := Option.map_eq_some_iff.mp h
      cases others with
      | error e => cases hrs
      | ok others => exact List.forall_mem_cons.mpr ⟨rfl, ih hothers⟩

theorem isSome_collect {slots : List (Option (Except Broken FileResult))}
    (h : ∀ slot ∈ slots, slot.isSome) : (collect slots).isSome := by
  induction slots with
  | nil => rfl
  | cons slot slots ih =>
    obtain ⟨hslot, hslots⟩ := List.forall_mem_cons.mp h
    match slot with
    | none => cases hslot
    | some (.error e) => rfl
    | some (.ok r) =>
      rw [collect, Option.isSome_map]
      exact ih hslots

namespace Pool.Consistent

variable {k : Nat} {s : Setting} {fs : List String} {es : List (Event k)} {p : Pool k}

/-- What is read from the slots is what comes of the files one after the other. -/
theorem outcome_eq (h : Consistent s fs es p) {outcome : Except Broken (List FileResult)}
    (hout : p.outcome? fs = some outcome) :
    (fs.mapM fun f => (checkOne s f).value) = outcome :=
  collect_eq_mapM (fun _ _ hf => h.slot_eq hf) hout

/-- Once all results can be read, each file was checked once. -/
theorem eachOnce (h : Consistent s fs es p) {rs : List FileResult}
    (hout : p.outcome? fs = some (.ok rs)) : Event.EachOnce es fs.length := by
  have hdone : ∀ i < fs.length, i ∈ Event.finished es := fun i hi =>
    h.isSome_slot.mp <| isSome_of_collect_eq_ok hout _ <|
      List.mem_map_of_mem (List.mem_range.mpr hi)
  have htaken : p.taken = fs.length := by
    refine Nat.le_antisymm h.taken_le (Nat.le_of_not_lt fun hlt => ?_)
    exact Nat.lt_irrefl _ (h.finished_lt _ (hdone _ hlt))
  refine ⟨htaken ▸ h.started, (List.perm_ext_iff_of_nodup h.once List.nodup_range).mpr fun i => ?_⟩
  rw [List.mem_range]
  exact ⟨fun hi => htaken ▸ h.finished_lt i hi, hdone i⟩

/-! ## Going on -/

/-- As long as the slots do not tell what comes of the files, there is something that can happen. -/
theorem exists_step (h : Consistent s fs es p) (hk : 0 < k) (hout : p.outcome? fs = none) :
    ∃ e q, p.step s fs e = some q := by
  by_cases hheld : ∃ w i, p.hands w = some i
  · obtain ⟨w, i, hw⟩ := hheld
    exact ⟨.finish w i, _, if_pos hw⟩
  · have hfree : ∀ w, p.hands w = none := fun w =>
      Option.eq_none_iff_forall_ne_some.mpr fun i hi => hheld ⟨w, i, hi⟩
    by_cases hmore : p.taken < fs.length
    · exact ⟨.start ⟨0, hk⟩ p.taken, _, if_pos ⟨hfree _, rfl, hmore⟩⟩
    · -- All files are done, so the slots do tell.
      have hfull : (p.outcome? fs).isSome := isSome_collect fun slot hslot => by
        obtain ⟨i, hi, rfl⟩ := List.mem_map.mp hslot
        have hlt : i < p.taken := by
          rw [List.mem_range] at hi
          omega
        exact h.isSome_slot.mpr ((h.covered i hlt).resolve_right fun ⟨w, hw⟩ => hheld ⟨w, i, hw⟩)
      rw [hout] at hfull
      cases hfull

/-- Each file is good for two events. -/
theorem length_le (h : Consistent s fs es p) : es.length ≤ 2 * fs.length := by
  have hstarted : (Event.started es).length = p.taken := by rw [h.started, List.length_range]
  have hfinished : (Event.finished es).length ≤ (List.range p.taken).length :=
    (h.once.subperm fun i hi => List.mem_range.mpr (h.finished_lt i hi)).length_le
  have htaken := h.taken_le
  rw [Event.length_eq, hstarted]
  rw [List.length_range] at hfinished
  omega

/-- From wherever events lead, others lead on to where the slots tell what comes of the files. -/
theorem exists_run {es : List (Event k)} {p : Pool k} (h : Consistent s fs es p) (hk : 0 < k) :
    ∃ rest q, p.run s fs rest = some q ∧ (q.outcome? fs).isSome := by
  cases hout : p.outcome? fs with
  | some outcome => exact ⟨[], p, rfl, by rw [hout]; rfl⟩
  | none =>
    obtain ⟨e, q, hstep⟩ := h.exists_step hk hout
    have hq := h.step hstep
    obtain ⟨rest, r, hrun, hr⟩ := hq.exists_run hk
    exact ⟨e :: rest, r, Option.bind_eq_some_iff.mpr ⟨q, hstep, hrun⟩, hr⟩
termination_by 2 * fs.length - es.length
decreasing_by
  have hlen := hq.length_le
  rw [List.length_append, List.length_singleton] at hlen ⊢
  omega

end Pool.Consistent

end Run

/-! ## Any number of workers -/

/-- The results say the same, and lead to the same end of a session. -/
structure RunResults.Agree (r q : RunResults) : Prop where
  files : r.files = q.files
  totalChecks : r.totalChecks = q.totalChecks
  errorCount : r.errorCount = q.errorCount
  failures : r.failures = q.failures
  skipped : r.skipped = q.skipped
  counted : (r.stats.map fun t => (t.files, t.checks, t.errors)) =
    q.stats.map fun t => (t.files, t.checks, t.errors)
  report : r.report = q.report
  output : ∀ format : Command.Format, format.render r = format.render q
  exitCode : Command.exitCode r = Command.exitCode q
  ending : ∀ (o : Command.Options) (w : Workspace), o.conclude w r = o.conclude w q

/-- The results are those of some files, in their order, and are counted as such. -/
structure RunResults.Counts (r : RunResults) (workers : Nat) (rs : List FileResult) : Prop where
  files : r.files = rs
  stats : r.stats = some
    { workers
      files := rs.length
      checks := total FileResult.checks rs
      errors := total FileResult.errorCount rs }
  elapsed : r.elapsed = none

namespace RunResults

variable {r q : RunResults}

section Files

variable (h : r.files = q.files)
include h

theorem diagnostics_congr : r.diagnostics = q.diagnostics := by
  rw [diagnostics, diagnostics, h]

theorem failures_congr : r.failures = q.failures := by
  rw [failures, failures, h]

theorem reportText_congr : r.reportText = q.reportText := by
  rw [reportText, reportText, report, report, h]

theorem render_congr (format : Command.Format) : format.render r = format.render q := by
  cases format with
  | text => rw [Command.Format.render, Command.Format.render, h]
  | json => exact reportText_congr h
  | gcc =>
    rw [Command.Format.render, Command.Format.render, diagnostics_congr h, failures_congr h, gcc,
      gcc, diagnostics_congr h]

theorem exitCode_congr : Command.exitCode r = Command.exitCode q := by
  rw [Command.exitCode, Command.exitCode, hasErrors, hasErrors, errorCount, errorCount, hasFailures,
    hasFailures, failures_congr h, h]

theorem saveReport_congr (w : Workspace) (destination : String) :
    Command.saveReport w r destination = Command.saveReport w q destination := by
  simp only [Command.saveReport, Command.writeReport, reportText_congr h]

end Files

/-- Results of the same files agree, whatever the number of workers. -/
theorem Counts.agree {k m : Nat} {rs : List FileResult} (hr : r.Counts k rs) (hq : q.Counts m rs) :
    r.Agree q := by
  have h : r.files = q.files := hr.files.trans hq.files.symm
  have hchecks : r.totalChecks = q.totalChecks := by rw [totalChecks, totalChecks, h]
  have herrors : r.errorCount = q.errorCount := by rw [errorCount, errorCount, h]
  have hskipped : r.skipped = q.skipped := by rw [skipped, skipped, h]
  have hsummary : r.summary = q.summary := by
    rw [summary, summary, h, hchecks, herrors, hskipped, failures_congr h, hr.elapsed, hq.elapsed]
  constructor
  · exact h
  · exact hchecks
  · exact herrors
  · exact failures_congr h
  · exact hskipped
  · rw [hr.stats, hq.stats]
    rfl
  · rw [report, report, h]
  · exact render_congr h
  · exact exitCode_congr h
  · intro o w
    simp only [Command.Options.conclude, hsummary, exitCode_congr h, saveReport_congr h]

end RunResults

theorem Config.workers_pos (c : Config) : 0 < c.workers := by
  rw [workers]
  split <;> omega

namespace Run

variable {s : Setting} {fs : List String}

theorem counts_tally (workers : Nat) (rs : List FileResult) :
    (tally workers rs).Counts workers rs :=
  ⟨rfl, rfl, rfl⟩

theorem workersFor_pos (c : Config) (fs : List String) : 0 < workersFor c fs := by
  have := c.workers_pos
  rw [workersFor]
  omega

/-- With one job the files are the same, one after the other. -/
theorem files_withJobs_one (s : Setting) (fs : List String) :
    (files (s.withJobs 1) fs).value =
      (fs.mapM fun f => (checkOne s f).value).map (tally 1) := by
  have hworkers : workersFor (s.withJobs 1).config fs = 1 := by
    show min 1 (max fs.length 1) = 1
    omega
  rw [files_value, hworkers]
  rfl

theorem checkOne_of_source {path : String} {why : SourceError}
    (h : (checkPath s path path).value = .error (.source why)) :
    (checkOne s path).value =
      .ok { file := path, status := .parseError, failure := some why.render } := by
  simp only [checkOne, Logged.value_bind, h, Logged.value_pure]

/-- A file that fails has the result that says so in its place, and without the file the others have
the results that they have with it. -/
theorem failed_alone {rs : List FileResult}
    (h : (fs.map fun f => (checkOne s f).value) = rs.map .ok)
    {before after : List String} {f : String} (hfs : fs = before ++ f :: after) {why : SourceError}
    (hf : (checkPath s f f).value = .error (.source why)) :
    ∃ rs₁ rs₂,
      rs = rs₁ ++ { file := f, status := .parseError, failure := some why.render } :: rs₂ ∧
      rs₁.length = before.length ∧
      (files s (before ++ after)).value =
        .ok (tally (workersFor s.config (before ++ after)) (rs₁ ++ rs₂)) := by
  subst hfs
  rw [List.map_append, List.map_cons, checkOne_of_source hf] at h
  obtain ⟨rs₁, tail, rfl, hbefore, htail⟩ := List.map_eq_append_iff.mp h.symm
  obtain ⟨x, rs₂, rfl, hx, hafter⟩ := List.map_eq_cons_iff.mp htail
  cases hx
  refine ⟨rs₁, rs₂, rfl, ?_, files_eq_ok.mpr ⟨rs₁ ++ rs₂, ?_, rfl⟩⟩
  · have hlength := congrArg List.length hbefore
    rwa [List.length_map, List.length_map] at hlength
  · rw [List.map_append, List.map_append, hbefore, hafter]

/-- Whatever the number of jobs and in whatever order the workers take up files and are done with
them: no file is done twice, and the work can go on until the slots tell what comes of the files.
That is what the run gives, and what a run with one job gives. If there are results, they are those
of the files in order, each file was checked once, the run holds exactly these results and agrees in
all that it counts and shows with the run with one job, and a file that fails changes no other
result. -/
theorem pool_equals_one_job (s : Setting) (fs : List String)
    (es : List (Event (workersFor s.config fs))) (p : Pool (workersFor s.config fs))
    (h : Pool.run s fs {} es = some p) :
    (Event.finished es).Nodup ∧
    (∃ rest q, Pool.run s fs {} (es ++ rest) = some q ∧ (q.outcome? fs).isSome) ∧
    (∀ outcome, p.outcome? fs = some outcome →
      (files s fs).value = outcome.map (tally (workersFor s.config fs)) ∧
      (files (s.withJobs 1) fs).value = outcome.map (tally 1)) ∧
    ∀ rs, p.outcome? fs = some (.ok rs) →
      (fs.map fun f => (checkOne s f).value) = rs.map .ok ∧
      Event.EachOnce es fs.length ∧
      (∃ r q, (files s fs).value = .ok r ∧ (files (s.withJobs 1) fs).value = .ok q ∧
        r.files = rs ∧ q.files = rs ∧ r.Agree q) ∧
      ∀ before f after why, fs = before ++ f :: after →
        (checkPath s f f).value = .error (.source why) →
        ∃ rs₁ rs₂,
          rs = rs₁ ++ { file := f, status := .parseError, failure := some why.render } :: rs₂ ∧
          rs₁.length = before.length ∧
          (files s (before ++ after)).value =
            .ok (tally (workersFor s.config (before ++ after)) (rs₁ ++ rs₂)) := by
  have hp : Pool.Consistent s fs es p := Pool.Consistent.initial.run h
  have hgives : ∀ outcome, p.outcome? fs = some outcome →
      (files s fs).value = outcome.map (tally (workersFor s.config fs)) ∧
      (files (s.withJobs 1) fs).value = outcome.map (tally 1) := by
    intro outcome hout
    rw [files_value, files_withJobs_one, hp.outcome_eq hout]
    exact ⟨rfl, rfl⟩
  refine ⟨hp.once, ?_, hgives, fun rs hout => ?_⟩
  · obtain ⟨rest, q, hrun, hq⟩ := hp.exists_run (workersFor_pos s.config fs)
    exact ⟨rest, q, by rw [Pool.run_append, h]; exact hrun, hq⟩
  · have hrs := mapM_eq_ok.mp (hp.outcome_eq hout)
    obtain ⟨hfiles, hone⟩ := hgives _ hout
    have hcounts := counts_tally (workersFor s.config fs) rs
    refine ⟨hrs, hp.eachOnce hout, ⟨_, _, hfiles, hone, hcounts.files, (counts_tally 1 rs).files,
      hcounts.agree (counts_tally 1 rs)⟩, fun _ _ _ _ hfs hf => failed_alone hrs hfs hf⟩

end Run

/-- The file with a mismatch, and more jobs than there are files. -/
def manyJobs : Setting :=
  oneMismatch.withJobs 7

/-- Two workers take up a file each, and the second is done first. -/
def secondFirst : List (Run.Event 2) :=
  [.start 0 0, .start 1 1, .finish 1 1, .finish 0 0]

/-- The file with a mismatch and one that is not there, with the second done first, give both results
and all that they give with one job, and the file gives without the other what it gives with it. -/
theorem pool_equals_one_job_secondFirst :
    Run.workersFor manyJobs.config ["a.js", "gone.js"] = 2 ∧
    ∃ p x y, Run.Pool.run manyJobs ["a.js", "gone.js"] {} secondFirst = some p ∧
      p.outcome? ["a.js", "gone.js"] = some (.ok [x, y]) ∧
      x.errorCount = 1 ∧ y.status = .parseError ∧
      (Run.Event.finished secondFirst).Nodup ∧
      (∃ rest q, Run.Pool.run manyJobs ["a.js", "gone.js"] {} (secondFirst ++ rest) = some q ∧
        (q.outcome? ["a.js", "gone.js"]).isSome) ∧
      Run.Event.EachOnce secondFirst 2 ∧
      (Run.files manyJobs ["a.js", "gone.js"]).value = .ok (Run.tally 2 [x, y]) ∧
      (Run.files (manyJobs.withJobs 1) ["a.js", "gone.js"]).value = .ok (Run.tally 1 [x, y]) ∧
      (∃ r q, (Run.files manyJobs ["a.js", "gone.js"]).value = .ok r ∧
        (Run.files (manyJobs.withJobs 1) ["a.js", "gone.js"]).value = .ok q ∧
        r.files = [x, y] ∧ q.files = [x, y] ∧ r.Agree q) ∧
      (Run.files manyJobs ["a.js"]).value = .ok (Run.tally 1 [x]) := by
  obtain ⟨x, hx⟩ : ∃ x, (Run.checkOne manyJobs "a.js").value = .ok x :=
    Run.exists_checkOne (by decide)
  have hcount :
      (Run.checkOne manyJobs "a.js").value.toOption.map FileResult.errorCount = some 1 := by
    decide +kernel
  have hread : Run.readSource manyJobs.workspace "gone.js" "gone.js" =
      .error (.source (.unreadable "gone.js" .notFound)) := by
    decide +kernel
  have hgone : (Run.checkPath manyJobs "gone.js" "gone.js").value =
      .error (.source (.unreadable "gone.js" .notFound)) := by
    rw [Run.checkPath, hread]
    rfl
  obtain ⟨p, hrun, hslots⟩ :
      ∃ p, Run.Pool.run manyJobs ["a.js", "gone.js"] {} secondFirst = some p ∧
        p.outcome? ["a.js", "gone.js"] =
          Run.collect [some (Run.checkOne manyJobs "a.js").value,
            some (Run.checkOne manyJobs "gone.js").value] :=
    ⟨_, rfl, rfl⟩
  rw [hx] at hcount
  rw [hx, Run.checkOne_of_source hgone] at hslots
  obtain ⟨honce, hgoes, hagrees, hresults⟩ :=
    Run.pool_equals_one_job manyJobs ["a.js", "gone.js"] secondFirst p hrun
  obtain ⟨-, heach, hheld, halone⟩ := hresults _ hslots
  obtain ⟨rs₁, rs₂, hrs, hlength, hwithout⟩ := halone ["a.js"] "gone.js" [] _ rfl hgone
  obtain ⟨z, rfl⟩ := List.length_eq_one_iff.mp hlength
  cases hrs
  exact ⟨rfl, p, x, _, hrun, hslots, Option.some.inj hcount, rfl, honce, hgoes, heach,
    (hagrees _ hslots).1, (hagrees _ hslots).2, hheld, hwithout⟩

end CommentTypes
