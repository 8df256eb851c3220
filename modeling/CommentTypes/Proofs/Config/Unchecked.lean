import CommentTypes.Config.Unchecked
import CommentTypes.Proofs.Outcome

/-!
# Unchecked configurations with values of their types

As long as each value is of the type of its option, nothing is lost by not checking: values are laid
over one another as in configurations, and the number of workers and what is odd are those of the
configuration (`overridden_as_checked`).
-/

namespace CommentTypes

/-- The values as the fields of an object, with a null for each that is not given. -/
def Overrides.fields (o : Overrides) : Json.Fields :=
  [("infer", (o.infer.map Json.bool).getD .null),
    ("extensions", (o.extensions.map fun l => .arr (l.map .str)).getD .null),
    ("exclude_dirs", (o.excludeDirs.map fun l => .arr (l.map .str)).getD .null),
    ("jobs", (o.jobs.map Json.int).getD .null)]

namespace UncheckedConfig

variable {c : UncheckedConfig}

/-! ## One value -/

theorem put?_infer (infer : Option Bool) :
    c.put? ("infer", (infer.map Json.bool).getD .null) =
      some { c with infer := (infer.map Json.bool).getD c.infer } := by
  cases infer <;> rfl

theorem put?_extensions (texts : Option (List Text.Loose)) :
    c.put? ("extensions", (texts.map fun l => .arr (l.map .str)).getD .null) =
      some { c with extensions := (texts.map (·.map .str)).getD c.extensions } := by
  cases texts <;> rfl

theorem put?_excludeDirs (texts : Option (List Text.Loose)) :
    c.put? ("exclude_dirs", (texts.map fun l => .arr (l.map .str)).getD .null) =
      some { c with excludeDirs := (texts.map (·.map .str)).getD c.excludeDirs } := by
  cases texts <;> rfl

theorem put?_jobs (jobs : Option Int) :
    c.put? ("jobs", (jobs.map Json.int).getD .null) =
      some { c with jobs := (jobs.map Json.int).getD c.jobs } := by
  cases jobs <;> rfl

/-! ## Whole configurations -/

theorem override_ofConfig (c : Config) (o : Overrides) :
    (ofConfig c).override (.obj o.fields) = .ok (ofConfig (c.override o)) := by
  simp only [override, Overrides.fields, List.foldlM_cons, List.foldlM_nil, put?_infer,
    put?_extensions, put?_excludeDirs, put?_jobs, Option.bind_eq_bind, Option.bind_some, pure,
    ofConfig, Option.getD_map, Config.override]

theorem hasJobs_ofConfig (c : Config) : (ofConfig c).hasJobs = .ok (decide (0 < c.jobs)) := rfl

theorem workers_ofConfig (c : Config) : (ofConfig c).workers = .ok (.int c.workers) := by
  rw [workers, hasJobs_ofConfig, Config.workers]
  by_cases h : 0 < c.jobs
  · have hnat : (c.jobs.toNat : Int) = c.jobs := Int.toNat_of_nonneg (Int.le_of_lt h)
    simp [h, bind, Except.bind, pure, Except.pure, ofConfig, hnat]
  · simp [h, bind, Except.bind, pure, Except.pure]

theorem mapM_extensionText (texts : List Text.Loose) :
    (texts.map Json.str).mapM extensionText = .ok texts :=
  mapM_eq_ok.mpr (List.map_map ..)

theorem warnings_ofConfig (c : Config) : (ofConfig c).warnings = .ok c.warnings := by
  have hextensions : (ofConfig c).extensions.mapM extensionText = .ok c.extensions :=
    mapM_extensionText c.extensions
  rw [warnings, hasJobs_ofConfig]
  simp only [bind, Except.bind, hextensions, pure, Except.pure, Config.warnings]
  by_cases h : 0 < c.jobs
  · simp [h, Int.not_le.mpr h]
  · simp [h, Int.not_lt.mp h]

/-- Overrides laid one after the other over a configuration as values give the configuration that
they give as overrides, with as many workers and the same warnings. -/
theorem overridden_as_checked (c : Config) (os : List Overrides) :
    ∃ last, os.foldlM (fun c o => override c (.obj o.fields)) (ofConfig c) = .ok last ∧
      last = ofConfig (os.foldl Config.override c) ∧
      last.workers = .ok (.int (os.foldl Config.override c).workers) ∧
      last.warnings = .ok (os.foldl Config.override c).warnings := by
  induction os generalizing c with
  | nil => exact ⟨_, rfl, rfl, workers_ofConfig c, warnings_ofConfig c⟩
  | cons o os ih =>
    obtain ⟨last, hlast, hrest⟩ := ih (c.override o)
    refine ⟨last, ?_, hrest⟩
    rw [List.foldlM_cons, override_ofConfig]
    exact hlast

end UncheckedConfig

end CommentTypes
