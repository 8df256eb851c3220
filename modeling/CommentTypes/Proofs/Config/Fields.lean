import CommentTypes.Config.Mapping
import CommentTypes.Proofs.Outcome
import CommentTypes.Proofs.Text.Ascending

/-!
# Configurations from fields

What the fields of an object give. Names that are no options are told in ascending order, whatever
else is wrong (`ofFields_of_unknown`). Else the values are looked at, option by option, and the first
one that is not of its type is told (`ofFields_cases`). If there is neither, each option has the
value of its field, or its default (`ofFields_eq_ok_iff`).

An option is read as what it can be written as, so all four are read by one rule
(`optionValue_eq_ok_iff`), and a configuration is read back from its own fields (`ofFields_fields`).
-/

namespace CommentTypes.Config

/-! ## Options -/

/-- The options of a configuration. -/
inductive Key where
  | infer
  | jobs
  | extensions
  | excludeDirs
  deriving DecidableEq

namespace Key

/-- The name of an option. -/
def name : Key → Text.Loose
  | .infer => "infer"
  | .jobs => "jobs"
  | .extensions => "extensions"
  | .excludeDirs => "exclude_dirs"

/-- The values that an option can have. -/
def Takes : Key → Json → Prop
  | .infer, v => ∃ b, v = .bool b
  | .jobs, v => ∃ n, v = .int n
  | .extensions, v => ∃ texts : List Text.Loose, v = .arr (texts.map .str)
  | .excludeDirs, v => ∃ texts : List Text.Loose, v = .arr (texts.map .str)

/-- What is wrong if an option has another value. -/
def fault : Key → ConfigFault
  | .infer => .inferNotBool
  | .jobs => .jobsNotInteger
  | .extensions => .notTexts "extensions"
  | .excludeDirs => .notTexts "exclude_dirs"

/-- The options that are looked at before an option. -/
def earlier : Key → List Key
  | .infer => []
  | .jobs => [.infer]
  | .extensions => [.infer, .jobs]
  | .excludeDirs => [.infer, .jobs, .extensions]

/-- The value of an option in a configuration. -/
def value (c : Config) : Key → Json
  | .infer => .bool c.infer
  | .jobs => .int c.jobs
  | .extensions => .arr (c.extensions.map .str)
  | .excludeDirs => .arr (c.excludeDirs.map .str)

/-- The option is not given, or with a value that it can have. -/
def Fits (k : Key) (fields : Json.Fields) : Prop :=
  ∀ v, fields.lookup k.name = some v → k.Takes v

theorem takes_value (c : Config) (k : Key) : k.Takes (k.value c) := by
  cases k <;> exact ⟨_, rfl⟩

theorem lookup_fields (c : Config) (k : Key) : c.fields.lookup k.name = some (k.value c) := by
  cases k <;> rfl

end Key

/-! ## Values -/

theorem bool?_eq_some_iff (v : Json) (b : Bool) : bool? v = some b ↔ v = .bool b := by
  cases v <;> simp [bool?]

theorem int?_eq_some_iff (v : Json) (n : Int) : int? v = some n ↔ v = .int n := by
  cases v <;> simp [int?]

theorem text?_eq_some_iff (v : Json) (t : Text.Loose) : text? v = some t ↔ v = .str t := by
  cases v <;> simp [text?]

theorem mapM_text?_eq_some_iff (items : List Json) (texts : List Text.Loose) :
    items.mapM text? = some texts ↔ items = texts.map .str := by
  induction items generalizing texts with
  | nil => cases texts <;> simp
  | cons item items ih =>
    rw [List.mapM_cons]
    cases texts with
    | nil => simp [Option.bind_eq_some_iff]
    | cons t texts => simp [Option.bind_eq_some_iff, text?_eq_some_iff, ih]

theorem textList?_eq_some_iff (v : Json) (texts : List Text.Loose) :
    textList? v = some texts ↔ v = .arr (texts.map .str) := by
  cases v <;> simp [textList?, mapM_text?_eq_some_iff]

section Value

variable {α : Type} {read? : Json → Option α} {write : α → Json}
  (hread : ∀ v a, read? v = some a ↔ v = write a)
  {fields : Json.Fields} {name : String} {standard : α} {fault : ConfigFault}
include hread

/-- The value of an option is written as the value of its field, or as the default. -/
theorem optionValue_eq_ok_iff (a : α) :
    optionValue fields name standard read? fault = .ok a ↔
      write a = (fields.lookup (.string name)).getD (write standard) := by
  unfold optionValue
  cases fields.lookup (.string name) with
  | none =>
    rw [Option.getD_none, Except.ok.injEq]
    constructor
    · rintro rfl
      rfl
    · intro h
      have hsame := (hread (write a) standard).mpr h
      rw [(hread (write a) a).mpr rfl] at hsame
      exact (Option.some.inj hsame).symm
  | some v =>
    rw [Option.getD_some, @eq_comm _ (write a), ← hread v a]
    dsimp only
    cases read? v <;> simp

theorem exists_optionValue
    (h : ∀ v, fields.lookup (.string name) = some v → ∃ a, v = write a) :
    ∃ a, optionValue fields name standard read? fault = .ok a := by
  cases hv : fields.lookup (.string name) with
  | none => exact ⟨standard, by rw [optionValue, hv]⟩
  | some v =>
    obtain ⟨a, ha⟩ := h v hv
    exact ⟨a, (optionValue_eq_ok_iff hread a).mpr (by rw [hv, Option.getD_some, ha])⟩

theorem optionValue_eq_error
    (h : ¬ ∀ v, fields.lookup (.string name) = some v → ∃ a, v = write a) :
    optionValue fields name standard read? fault = .error fault := by
  obtain ⟨v, hv⟩ := Classical.not_forall.mp h
  obtain ⟨hlookup, hnot⟩ := Classical.not_imp.mp hv
  have hnone : read? v = none := by
    cases ha : read? v with
    | none => rfl
    | some a => exact absurd ⟨a, (hread v a).mp ha⟩ hnot
  simp only [optionValue, hlookup, hnone]

end Value

/-! ## Names -/

variable {fields : Json.Fields}

theorem mem_unknownNames {name : Text.Loose} :
    name ∈ unknownNames fields ↔ name ∈ fields.map Prod.fst ∧ name ∉ optionNames := by
  simp [unknownNames, List.mem_mergeSort]

theorem unknownNames_eq_nil_iff :
    unknownNames fields = [] ↔ ∀ name ∈ fields.map Prod.fst, name ∈ optionNames := by
  rw [List.eq_nil_iff_forall_not_mem]
  constructor
  · intro h name hname
    exact Decidable.not_not.mp fun hunknown => h name (mem_unknownNames.mpr ⟨hname, hunknown⟩)
  · intro h name hname
    obtain ⟨hmem, hunknown⟩ := mem_unknownNames.mp hname
    exact hunknown (h name hmem)

/-- Names that are no options are told before all else. -/
theorem ofFields_of_unknown (h : unknownNames fields ≠ []) :
    ofFields fields = .error (.unknownOptions (unknownNames fields)) := by
  have hempty : (unknownNames fields).isEmpty = false := by simpa using h
  simp only [ofFields, hempty]
  rfl

/-! ## All options -/

/-- Four values, one after the other. -/
theorem ofFields_eq (hknown : unknownNames fields = []) :
    ofFields fields =
      (optionValue fields "infer" false bool? .inferNotBool >>= fun infer =>
        optionValue fields "jobs" 1 int? .jobsNotInteger >>= fun jobs =>
        optionValue fields "extensions" ({} : Config).extensions textList?
          (.notTexts "extensions") >>= fun extensions =>
        optionValue fields "exclude_dirs" ({} : Config).excludeDirs textList?
          (.notTexts "exclude_dirs") >>= fun excludeDirs =>
        pure { infer, extensions, excludeDirs, jobs }) := by
  simp only [ofFields, hknown]
  rfl

/-- The configuration that the fields give: they name options only, and each option has the value of
its field, or its default. -/
theorem ofFields_eq_ok_iff {c : Config} :
    ofFields fields = .ok c ↔
      (∀ name ∈ fields.map Prod.fst, name ∈ optionNames) ∧
        ∀ k : Key, k.value c = (fields.lookup k.name).getD (k.value {}) := by
  by_cases hknown : unknownNames fields = []
  · rw [← unknownNames_eq_nil_iff, ofFields_eq hknown]
    simp only [hknown, true_and, bind_eq_ok_iff, optionValue_eq_ok_iff bool?_eq_some_iff,
      optionValue_eq_ok_iff int?_eq_some_iff, optionValue_eq_ok_iff textList?_eq_some_iff]
    constructor
    · rintro ⟨infer, hinfer, jobs, hjobs, extensions, hextensions, excludeDirs, hexclude, hc⟩
      cases hc
      intro k
      cases k with
      | infer => exact hinfer
      | jobs => exact hjobs
      | extensions => exact hextensions
      | excludeDirs => exact hexclude
    · intro h
      exact ⟨c.infer, h .infer, c.jobs, h .jobs, c.extensions, h .extensions, c.excludeDirs,
        h .excludeDirs, rfl⟩
  · rw [ofFields_of_unknown hknown, ← unknownNames_eq_nil_iff]
    exact iff_of_false (by simp) fun h => hknown h.1

/-- Where the fields name options only, they give a configuration, or the first option whose value
is not of its type is told. -/
theorem ofFields_cases (hknown : unknownNames fields = []) :
    (∃ c, ofFields fields = .ok c) ∨
      ∃ k : Key, (∀ j ∈ k.earlier, j.Fits fields) ∧ ¬ k.Fits fields ∧
        ofFields fields = .error k.fault := by
  rw [ofFields_eq hknown]
  by_cases hinfer : Key.infer.Fits fields
  · obtain ⟨infer, hreadInfer⟩ := exists_optionValue bool?_eq_some_iff hinfer
    rw [hreadInfer]
    by_cases hjobs : Key.jobs.Fits fields
    · obtain ⟨jobs, hreadJobs⟩ := exists_optionValue int?_eq_some_iff hjobs
      rw [hreadJobs]
      by_cases hextensions : Key.extensions.Fits fields
      · obtain ⟨extensions, hreadExtensions⟩ :=
          exists_optionValue textList?_eq_some_iff hextensions
        rw [hreadExtensions]
        by_cases hexclude : Key.excludeDirs.Fits fields
        · obtain ⟨excludeDirs, hreadExclude⟩ := exists_optionValue textList?_eq_some_iff hexclude
          rw [hreadExclude]
          exact .inl ⟨_, rfl⟩
        · rw [optionValue_eq_error textList?_eq_some_iff hexclude]
          exact .inr ⟨.excludeDirs, by simp [Key.earlier, *], hexclude, rfl⟩
      · rw [optionValue_eq_error textList?_eq_some_iff hextensions]
        exact .inr ⟨.extensions, by simp [Key.earlier, *], hextensions, rfl⟩
    · rw [optionValue_eq_error int?_eq_some_iff hjobs]
      exact .inr ⟨.jobs, by simp [Key.earlier, *], hjobs, rfl⟩
  · rw [optionValue_eq_error bool?_eq_some_iff hinfer]
    exact .inr ⟨.infer, by simp [Key.earlier], hinfer, rfl⟩

/-- Fields give a configuration exactly if they name options only, with values of their types. -/
theorem exists_ofFields_iff :
    (∃ c, ofFields fields = .ok c) ↔
      (∀ name ∈ fields.map Prod.fst, name ∈ optionNames) ∧ ∀ k : Key, k.Fits fields := by
  constructor
  · rintro ⟨c, hc⟩
    obtain ⟨hnames, hvalues⟩ := ofFields_eq_ok_iff.mp hc
    refine ⟨hnames, fun k v hv => ?_⟩
    have hvalue := hvalues k
    rw [hv, Option.getD_some] at hvalue
    exact hvalue ▸ k.takes_value c
  · rintro ⟨hnames, hfits⟩
    rcases ofFields_cases (unknownNames_eq_nil_iff.mpr hnames) with hc | ⟨k, -, hmisfit, -⟩
    · exact hc
    · exact absurd (hfits k) hmisfit

/-- A configuration is read back from its fields. -/
theorem ofFields_fields (c : Config) : ofFields c.fields = .ok c := by
  have hnames : c.fields.map Prod.fst = optionNames := rfl
  refine ofFields_eq_ok_iff.mpr ⟨fun name hname => hnames ▸ hname, fun k => ?_⟩
  rw [Key.lookup_fields, Option.getD_some]

end CommentTypes.Config
