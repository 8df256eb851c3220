import CommentTypes.Typing.Tracker

/-!
# What declarations and refreshes change

A binding that is in a tracker after a declaration or a refresh was there before, or is the one
just made (`mem_declare`, `mem_refresh`). A change of a value leaves all names in place
(`names_modify`). All names but one are left alone, with their values and in their order
(`apartFrom_insert`, `apartFrom_modify`), and a refresh also leaves alone what is declared
(`declarations_refresh`).
-/

namespace CommentTypes

namespace NameMap

variable {α β : Type}

theorem mem_setEntry {name : String} {value : α} {entries : List (String × α)} {e : String × α}
    (h : e ∈ setEntry name value entries) : e ∈ entries ∨ e = (name, value) := by
  induction entries with
  | nil => exact .inr (List.mem_singleton.mp h)
  | cons entry rest ih =>
    obtain ⟨key, old⟩ := entry
    unfold setEntry at h
    split at h
    · rename_i hk
      rcases List.mem_cons.mp h with rfl | hr
      · exact .inr (by rw [hk])
      · exact .inl (List.mem_cons_of_mem _ hr)
    · rcases List.mem_cons.mp h with rfl | hr
      · exact .inl List.mem_cons_self
      · exact (ih hr).imp_left (List.mem_cons_of_mem _)

theorem mem_of_find? {m : NameMap α} {name : String} {value : α} (h : m.find? name = some value) :
    (name, value) ∈ m.entries := by
  obtain ⟨entries⟩ := m
  simp only [find?] at h ⊢
  induction entries with
  | nil => cases h
  | cons entry rest ih =>
    obtain ⟨key, old⟩ := entry
    rw [List.lookup_cons] at h
    split at h
    · rename_i hk
      obtain rfl := beq_iff_eq.mp hk
      cases h
      exact List.mem_cons_self
    · exact List.mem_cons_of_mem _ (ih h)

/-! ## Names -/

theorem mem_names {m : NameMap α} {name : String} : name ∈ m.names ↔ m.contains name = true := by
  obtain ⟨entries⟩ := m
  simp only [names, contains, find?]
  induction entries with
  | nil => simp
  | cons entry rest ih =>
    obtain ⟨key, value⟩ := entry
    rw [List.map_cons, List.mem_cons, ih, List.lookup_cons]
    by_cases h : name = key
    · simp [h]
    · simp only [h, beq_false_of_ne h, false_or]

theorem contains_insert {m : NameMap α} {name key : String} {value : α} :
    (m.insert name value).contains key = true ↔ m.contains key = true ∨ name = key := by
  by_cases h : key = name
  · simp [contains, h]
  · simp [contains, h, Ne.symm h]

@[simp]
theorem contains_modify (m : NameMap α) (name key : String) (f : α → α) :
    (m.modify name f).contains key = m.contains key := by
  by_cases h : key = name <;> simp [contains, h]

/-- Changing a value leaves the names and their order as they are. -/
@[simp]
theorem names_modify (m : NameMap α) (name : String) (f : α → α) :
    (m.modify name f).names = m.names := by
  unfold modify
  split
  · rename_i value h
    rw [names_insert, if_pos (mem_names.mpr (Option.isSome_of_eq_some h))]
  · rfl

/-- Where no name is listed twice, the entries are the names with their values. -/
theorem mem_entries_iff {m : NameMap α} (h : m.names.Nodup) {name : String} {value : α} :
    (name, value) ∈ m.entries ↔ m.find? name = some value := by
  refine ⟨fun hmem => ?_, mem_of_find?⟩
  obtain ⟨entries⟩ := m
  simp only [names, find?] at h hmem ⊢
  induction entries with
  | nil => cases hmem
  | cons entry rest ih =>
    obtain ⟨hfirst, hrest⟩ := List.nodup_cons.mp h
    rw [List.lookup_cons]
    rcases List.mem_cons.mp hmem with rfl | hmem
    · rw [beq_self_eq_true]
    · have hne : name ≠ entry.1 := fun e => hfirst (e ▸ List.mem_map_of_mem hmem)
      rw [beq_false_of_ne hne]
      exact ih hrest hmem

/-! ## Names that are left alone -/

/-- The entries of all names but one, in order. -/
def apartFrom (m : NameMap α) (name : Option String) : List (String × α) :=
  m.entries.filter fun e => name ≠ some e.1

theorem filter_setEntry (name : String) (value : α) (entries : List (String × α)) :
    (setEntry name value entries).filter (fun e => some name ≠ some e.1) =
      entries.filter fun e => some name ≠ some e.1 := by
  induction entries with
  | nil => simp [setEntry]
  | cons entry rest ih =>
    obtain ⟨key, old⟩ := entry
    unfold setEntry
    split
    · rename_i hk
      simp [hk]
    · rw [List.filter_cons, List.filter_cons, ih]

/-- Giving a name a value leaves the other names alone. -/
@[simp]
theorem apartFrom_insert (m : NameMap α) (name : String) (value : α) :
    (m.insert name value).apartFrom (some name) = m.apartFrom (some name) :=
  filter_setEntry ..

@[simp]
theorem apartFrom_modify (m : NameMap α) (name : String) (f : α → α) :
    (m.modify name f).apartFrom (some name) = m.apartFrom (some name) := by
  unfold modify
  split
  · exact apartFrom_insert ..
  · rfl

theorem lookup_filter_ne {name : Option String} {key : String} (h : name ≠ some key)
    (entries : List (String × α)) :
    (entries.filter fun e => name ≠ some e.1).lookup key = entries.lookup key := by
  induction entries with
  | nil => rfl
  | cons entry rest ih =>
    by_cases hk : key = entry.1
    · rw [List.filter_cons_of_pos (by simpa [← hk] using h), List.lookup_cons, List.lookup_cons, ih]
    · have hbeq : (key == entry.1) = false := beq_false_of_ne hk
      rw [List.filter_cons, List.lookup_cons, hbeq]
      split
      · rw [List.lookup_cons, hbeq, ih]
      · exact ih

/-- Names that are left alone keep their values. -/
theorem find?_eq_of_apartFrom {m m' : NameMap α} {name : Option String}
    (h : m'.apartFrom name = m.apartFrom name) {key : String} (hk : name ≠ some key) :
    m'.find? key = m.find? key := by
  have hlookup := congrArg (List.lookup key) h
  rwa [apartFrom, lookup_filter_ne hk, apartFrom, lookup_filter_ne hk] at hlookup

/-- Where nothing is set apart, nothing has changed. -/
theorem eq_of_apartFrom_none {m m' : NameMap α} (h : m'.apartFrom none = m.apartFrom none) :
    m' = m := by
  have hall : ∀ n : NameMap α, n.apartFrom none = n.entries := fun n =>
    List.filter_eq_self.mpr (by simp)
  rw [hall, hall] at h
  cases m
  cases m'
  exact congrArg mk h

theorem map_setEntry {name : String} {old value : α} {entries : List (String × α)}
    (h : entries.lookup name = some old) {f : α → β} (hf : f value = f old) :
    (setEntry name value entries).map (fun e => (e.1, f e.2)) =
      entries.map fun e => (e.1, f e.2) := by
  induction entries with
  | nil => cases h
  | cons entry rest ih =>
    obtain ⟨key, first⟩ := entry
    rw [List.lookup_cons] at h
    unfold setEntry
    by_cases hk : key = name
    · simp only [hk, beq_self_eq_true, Option.some.injEq] at h
      rw [if_pos hk, List.map_cons, List.map_cons, hf, h]
    · rw [beq_false_of_ne (Ne.symm hk)] at h
      rw [if_neg hk, List.map_cons, List.map_cons, ih h]

theorem lookup_map_snd (f : α → β) (key : String) (entries : List (String × α)) :
    (entries.map fun e => (e.1, f e.2)).lookup key = (entries.lookup key).map f := by
  induction entries with
  | nil => rfl
  | cons entry rest ih =>
    rw [List.map_cons, List.lookup_cons, List.lookup_cons]
    cases key == entry.1 with
    | true => rfl
    | false => exact ih

end NameMap

namespace Tracker

/-- A binding after a declaration: an old one, or the one declared. -/
theorem mem_declare {t : Tracker} {name : String} {declared : Option TypeName}
    {inferred : TypeName} {complex : Option Bool} {e : String × Binding}
    (h : e ∈ (t.declare name declared inferred complex).entries) :
    e ∈ t.entries ∨ e = (name, binding declared inferred complex) :=
  NameMap.mem_setEntry h

/-- A binding after a refresh: an old one, or the one that had the name, with the new type. -/
theorem mem_refresh {t : Tracker} {name : String} {inferred : TypeName} {b : Binding}
    (hb : t.find? name = some b) {e : String × Binding}
    (h : e ∈ (t.refresh name inferred).entries) :
    e ∈ t.entries ∨ e = (name, { b with inferred }) := by
  simp only [refresh, NameMap.modify, hb] at h
  exact NameMap.mem_setEntry h

end Tracker

/-! ## Declared types -/

/-- What is known of a variable apart from the type inferred for it. -/
def Binding.declaration (b : Binding) : Option TypeName × Bool :=
  (b.declared, b.complex)

namespace Tracker

/-- What is known of all variables apart from the types inferred for them, in order. -/
def declarations (t : Tracker) : List (String × Option TypeName × Bool) :=
  t.entries.map fun e => (e.1, e.2.declaration)

theorem lookup_declarations (t : Tracker) (name : String) :
    t.declarations.lookup name = (t.find? name).map Binding.declaration :=
  NameMap.lookup_map_snd ..

/-- A refresh changes no declared type, and neither the names nor their order. -/
@[simp]
theorem declarations_refresh (t : Tracker) (name : String) (inferred : TypeName) :
    (t.refresh name inferred).declarations = t.declarations := by
  unfold refresh NameMap.modify
  split
  · rename_i b hb
    exact NameMap.map_setEntry hb rfl
  · rfl

end Tracker

end CommentTypes
