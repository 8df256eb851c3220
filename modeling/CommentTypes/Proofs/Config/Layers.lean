import CommentTypes.Command.Session
import CommentTypes.Proofs.Config.Fields

/-!
# Configurations in layers

The configuration of a session has three layers: the defaults, the fields of a file, and the options
of the command line. The fields replace defaults (`Config.ofFields_eq_ok_iff`); without a file there
are none, and the defaults stay (`Options.baseConfig_eq_ok_iff`). The options replace the number of
jobs, turn inference on, and add directories to exclude (`Options.eq_apply_iff`).
-/

namespace CommentTypes

open Config (Key ofFields optionNames)

namespace Command.Options

variable {o : Options} {w : Workspace} {base config : Config}

/-- The fields are those of the object in the file of the configuration. Without a file there are
none. -/
def FileHolds (o : Options) (w : Workspace) (fields : Json.Fields) : Prop :=
  match given o.config with
  | some path => Config.readValue w (.ofString path) = .ok (.obj fields)
  | none => fields = []

/-- The configuration has the number of jobs that the options ask for, if they do; it infers if the
options or what is below them say so; and the directories of the options come after those to exclude
already. -/
structure LaidOver (o : Options) (base config : Config) : Prop where
  jobs : config.jobs = o.jobs.getD base.jobs
  infer : config.infer = (o.infer || base.infer)
  extensions : config.extensions = base.extensions
  excludeDirs : config.excludeDirs = base.excludeDirs ++ o.exclude.map .string

theorem laidOver_apply (o : Options) (base : Config) : o.LaidOver base (o.apply base) := by
  constructor
  · rfl
  · cases hinfer : o.infer <;> simp [apply, Config.override, hinfer]
  · rfl
  · cases hexclude : o.exclude <;> simp [apply, Config.override, hexclude]

theorem eq_apply_iff : config = o.apply base ↔ o.LaidOver base config := by
  constructor
  · rintro rfl
    exact o.laidOver_apply base
  · intro h
    have happly := o.laidOver_apply base
    cases config
    cases hc : o.apply base
    rw [hc] at happly
    simp only [Config.mk.injEq]
    exact ⟨h.infer.trans happly.infer.symm, h.extensions.trans happly.extensions.symm,
      h.excludeDirs.trans happly.excludeDirs.symm, h.jobs.trans happly.jobs.symm⟩

/-- Below the options is the configuration that the fields of the file give. -/
theorem baseConfig_eq_ok_iff :
    (o.baseConfig w).value = .ok base ↔
      ∃ fields, o.FileHolds w fields ∧ ofFields fields = .ok base := by
  unfold baseConfig FileHolds
  cases given o.config with
  | none =>
    have hnone : ofFields [] = .ok {} := Config.ofFields_eq_ok_iff.mpr ⟨by simp, fun k => rfl⟩
    simp [hnone]
  | some path =>
    dsimp only [Config.load]
    cases Config.readValue w (.ofString path) with
    | error why => simp
    | ok v =>
      cases v with
      | obj fields => simp [mapError_eq_ok_iff]
      | _ => simp

theorem loadConfig_eq_ok_iff :
    (o.loadConfig w).value = .ok config ↔
      o.blankJobs = false ∧ ∃ base, (o.baseConfig w).value = .ok base ∧ config = o.apply base := by
  rw [loadConfig, Logged.value_bind]
  cases (o.baseConfig w).value with
  | error why => cases why <;> simp
  | ok base => cases hjobs : o.blankJobs <;> simp [eq_comm]

end Command.Options

open Command (Options)

/-- Configurations are read from fields and laid over one another. Fields give a configuration
exactly if they name options only and the values are of their types. Names that are no options are
told, all of them and in ascending order, whatever else there is; without such names it is the first
option whose value is not of its type. In the configuration an option has the value of its field, or
else its default, and so a configuration is read back from its own fields. The configuration of a
session is there, unless jobs are asked for without a number, exactly if the fields of the file give
one, and has the options of the command line laid over that one. -/
theorem configuration_in_layers (fields : Json.Fields) :
    ((∃ c, ofFields fields = .ok c) ↔
      (∀ name ∈ fields.map Prod.fst, name ∈ optionNames) ∧ ∀ k : Key, k.Fits fields) ∧
    ((∃ name ∈ fields.map Prod.fst, name ∉ optionNames) →
      ∃ names, ofFields fields = .error (.unknownOptions names) ∧
        names.Perm ((fields.map Prod.fst).filter fun name => name ∉ optionNames) ∧
        names.Pairwise Text.Loose.Ascends ∧
        (ConfigFault.unknownOptions names).message =
          "unknown option(s): " ++ Text.joinWith ", " (names.map Text.Loose.shown)) ∧
    ((∀ name ∈ fields.map Prod.fst, name ∈ optionNames) → (¬ ∀ k : Key, k.Fits fields) →
      ∃ k : Key, (∀ j ∈ k.earlier, j.Fits fields) ∧ ¬ k.Fits fields ∧
        ofFields fields = .error k.fault) ∧
    (∀ c, ofFields fields = .ok c →
      ∀ k : Key, k.value c = (fields.lookup k.name).getD (k.value {})) ∧
    (∀ c : Config, ofFields c.fields = .ok c) ∧
    ∀ (o : Options) (w : Workspace) (config : Config),
      (o.loadConfig w).value = .ok config ↔
        o.blankJobs = false ∧ ∃ held base, o.FileHolds w held ∧ ofFields held = .ok base ∧
          o.LaidOver base config := by
  refine ⟨Config.exists_ofFields_iff, ?_, fun hnames hmisfit => ?_, fun c hc => ?_,
    Config.ofFields_fields, fun o w config => ?_⟩
  · rintro ⟨name, hname, hunknown⟩
    have hne : Config.unknownNames fields ≠ [] :=
      List.ne_nil_of_mem (Config.mem_unknownNames.mpr ⟨hname, hunknown⟩)
    refine ⟨_, Config.ofFields_of_unknown hne, ?_, Text.Loose.pairwise_mergeSort_atMost _, rfl⟩
    simpa [Config.unknownNames] using List.mergeSort_perm _ Text.Loose.atMost
  · rcases Config.ofFields_cases (Config.unknownNames_eq_nil_iff.mpr hnames) with hc | hk
    · exact absurd (Config.exists_ofFields_iff.mp hc).2 hmisfit
    · exact hk
  · exact (Config.ofFields_eq_ok_iff.mp hc).2
  · rw [Options.loadConfig_eq_ok_iff]
    refine and_congr_right fun _ => ⟨?_, ?_⟩
    · rintro ⟨base, hbase, hconfig⟩
      obtain ⟨held, hheld, hfields⟩ := Options.baseConfig_eq_ok_iff.mp hbase
      exact ⟨held, base, hheld, hfields, Options.eq_apply_iff.mp hconfig⟩
    · rintro ⟨held, base, hheld, hfields, hlaid⟩
      exact ⟨base, Options.baseConfig_eq_ok_iff.mpr ⟨held, hheld, hfields⟩,
        Options.eq_apply_iff.mpr hlaid⟩

/-- Fields with two names that are no options, and a value that is not of its type. -/
def strayFields : Json.Fields :=
  [("zeta", .null), ("jobs", .bool true), ("alpha", .int 1)]

/-- Fields with two values that are not of their types. -/
def misfitFields : Json.Fields :=
  [("exclude_dirs", .arr [.str "lib", .null]), ("infer", .bool true), ("jobs", .bool true)]

/-- A workspace with a configuration that sets the number of jobs and what to exclude. -/
def configured : Workspace :=
  { root := .dir [("c.json", .file (Text.Utf8.encode
      "\x7b\x22jobs\x22: 4, \x22exclude_dirs\x22: [\x22lib\x22]\x7d".toList))] }

/-- Options over that configuration. -/
def overOptions : Options :=
  { config := some "c.json", infer := true, exclude := ["tmp", "old"], paths := ["a.js"] }

/-- What they make of it. -/
def overConfigured : Config :=
  { infer := true, excludeDirs := ["lib", "tmp", "old"], jobs := 4 }

theorem misfitFields_jobs : ¬ Key.jobs.Fits misfitFields := by
  intro h
  obtain ⟨n, hn⟩ := h (.bool true) rfl
  cases hn

theorem layers_of_samples :
    ((∃ name ∈ strayFields.map Prod.fst, name ∉ optionNames) ∧
      ∃ names, ofFields strayFields = .error (.unknownOptions names) ∧
        names.Perm ["zeta", "alpha"] ∧ names.Pairwise Text.Loose.Ascends) ∧
    ((∀ name ∈ misfitFields.map Prod.fst, name ∈ optionNames) ∧
      ofFields misfitFields = .error .jobsNotInteger) ∧
    (overOptions.loadConfig configured).value = .ok overConfigured ∧
    ∃ held base, overOptions.FileHolds configured held ∧ ofFields held = .ok base ∧
      overOptions.LaidOver base overConfigured := by
  have hstray : ∃ name ∈ strayFields.map Prod.fst, name ∉ optionNames := by decide
  have hnames : ∀ name ∈ misfitFields.map Prod.fst, name ∈ optionNames := by decide
  have hloaded : (overOptions.loadConfig configured).value = .ok overConfigured :=
    eq_ok_of_toOption (by decide +kernel)
  obtain ⟨-, hunknown, -⟩ := configuration_in_layers strayFields
  obtain ⟨-, -, hmisfit, -, -, hlayers⟩ := configuration_in_layers misfitFields
  refine ⟨⟨hstray, ?_⟩, ⟨hnames, ?_⟩, hloaded, ((hlayers ..).mp hloaded).2⟩
  · obtain ⟨names, herror, hperm, hsorted, -⟩ := hunknown hstray
    have hfilter : ((strayFields.map Prod.fst).filter fun name => name ∉ optionNames) =
        [.string "zeta", .string "alpha"] := by decide
    exact ⟨names, herror, hfilter ▸ hperm, hsorted⟩
  · obtain ⟨k, hearlier, hk, herror⟩ := hmisfit hnames fun h => misfitFields_jobs (h .jobs)
    cases k with
    | infer =>
      refine absurd (fun v hv => ?_) hk
      cases hv
      exact ⟨true, rfl⟩
    | jobs => exact herror
    | extensions => exact absurd (hearlier .jobs (by decide)) misfitFields_jobs
    | excludeDirs => exact absurd (hearlier .jobs (by decide)) misfitFields_jobs

end CommentTypes
