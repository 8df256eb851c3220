/-!
# Maps by name

Maps from names to values that keep their names in the order in which they were first given.
Giving a name again replaces its value and leaves its place.
-/

namespace CommentTypes

/-- Values by name, in the order of the first appearance of each name. -/
structure NameMap (α : Type) where
  entries : List (String × α) := []

namespace NameMap

variable {α : Type}

/-- The value of a name. -/
def find? (m : NameMap α) (name : String) : Option α :=
  m.entries.lookup name

/-- The name has a value. -/
def contains (m : NameMap α) (name : String) : Bool :=
  (m.find? name).isSome

/-- Replaces the value of a name in a list of entries, or adds the name at the end. -/
def setEntry {κ : Type} [DecidableEq κ] (name : κ) (value : α) : List (κ × α) → List (κ × α)
  | [] => [(name, value)]
  | (key, old) :: rest =>
    if key = name then (key, value) :: rest else (key, old) :: setEntry name value rest

/-- Gives a name a value. -/
def insert (m : NameMap α) (name : String) (value : α) : NameMap α :=
  ⟨setEntry name value m.entries⟩

theorem lookup_setEntry (name key : String) (value : α) (entries : List (String × α)) :
    (setEntry name value entries).lookup key =
      if key = name then some value else entries.lookup key := by
  induction entries with
  | nil => grind [setEntry]
  | cons entry rest ih => grind [setEntry]

/-- A name that was given has its value, and no other name has changed. -/
@[simp]
theorem find?_insert (m : NameMap α) (name key : String) (value : α) :
    (m.insert name value).find? key = if key = name then some value else m.find? key :=
  lookup_setEntry ..

/-- Changes the value of a name, if it has one. -/
def modify (m : NameMap α) (name : String) (f : α → α) : NameMap α :=
  match m.find? name with
  | some value => m.insert name (f value)
  | none => m

@[simp]
theorem find?_modify (m : NameMap α) (name key : String) (f : α → α) :
    (m.modify name f).find? key = if key = name then (m.find? key).map f else m.find? key := by
  unfold modify
  split <;> rename_i h
  · by_cases hk : key = name <;> simp [hk, h]
  · by_cases hk : key = name <;> simp [hk, h]

/-- The names, in order. -/
def names (m : NameMap α) : List String :=
  m.entries.map Prod.fst

theorem map_fst_setEntry (name : String) (value : α) (entries : List (String × α)) :
    (setEntry name value entries).map Prod.fst =
      if name ∈ entries.map Prod.fst then entries.map Prod.fst
      else entries.map Prod.fst ++ [name] := by
  induction entries with
  | nil => simp [setEntry]
  | cons entry rest ih =>
    by_cases h : entry.1 = name
    · simp [setEntry, h]
    · have h' : name ≠ entry.1 := fun e => h e.symm
      simp only [setEntry, if_neg h, List.map_cons, ih, List.mem_cons, h', false_or]
      split <;> simp

/-- A name keeps its place, and a new one comes last. -/
theorem names_insert (m : NameMap α) (name : String) (value : α) :
    (m.insert name value).names = if name ∈ m.names then m.names else m.names ++ [name] :=
  map_fst_setEntry ..

/-- The values, in the order of their names. -/
def values (m : NameMap α) : List α :=
  m.entries.map Prod.snd

/-- The number of names. -/
def size (m : NameMap α) : Nat :=
  m.entries.length

end NameMap

end CommentTypes
