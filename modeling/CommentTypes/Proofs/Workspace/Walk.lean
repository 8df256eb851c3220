import CommentTypes.Proofs.Workspace.Follow
import CommentTypes.Workspace.Discovery

/-!
# Walks over directories

What is found below a directory, said without the walk: the files reached through directories that
are entered (`Entry.Leads`, `Entry.Reaches`), each given by its route. The walk lists the paths of
exactly these routes, in the order in which the files of a directory come before its directories and
both in ascending order of their names (`Route.Before`). How deep a walk goes is the length of the
longest chain of directories that it enters (`lt_levels_iff_leads`).
-/

namespace CommentTypes

/-! ## Routes -/

/-- The way from a directory to a file below it: the names of the directories and of the file. -/
structure Route where
  dirs : List String
  file : String

namespace Route

/-- The path of the file, from a directory with a path. -/
def path (base : String) (r : Route) : String :=
  joinPath (r.dirs.foldl joinPath base) r.file

/-- The route from the directory above. -/
def under (name : String) (r : Route) : Route :=
  { r with dirs := name :: r.dirs }

/-- The first file comes before the second, by the names of the directories that lead to them. -/
def comesFirst (file other : String) : List String → List String → Prop
  | [], [] => file < other
  | [], _ :: _ => True
  | _ :: _, [] => False
  | d :: ds, e :: es => d < e ∨ d = e ∧ comesFirst file other ds es

/-- The files of a directory come before those in its directories, both in ascending order. -/
def Before (r s : Route) : Prop :=
  comesFirst r.file s.file r.dirs s.dirs

end Route

namespace Entry

variable {c : Config}

/-- Names lead from an entry to one below it, through directories that can be listed and are
entered. -/
inductive Leads (c : Config) : Entry → List String → Entry → Prop where
  | here (e : Entry) : Leads c e [] e
  | enter {entries : List (String × Entry)} {name : String} {below target : Entry}
    {names : List String} (hmem : (name, below) ∈ entries) (hdir : below.isDir)
    (henters : c.enters name) (h : Leads c below names target) :
    Leads c (.dir entries true) (name :: names) target

/-- A file that is taken is reached by a route, in a directory that can be listed and is not too long
a path away. -/
def Reaches (c : Config) (path : String) (e : Entry) (r : Route) : Prop :=
  ∃ entries bytes, Leads c e r.dirs (.dir entries true) ∧ (r.file, .file bytes) ∈ entries ∧
    c.takes r.file ∧ (r.dirs.foldl joinPath path).utf8ByteSize < pathLimit

/-! ## Sizes of paths -/

theorem size_add_le_joinPath (path name : String) :
    path.utf8ByteSize + name.utf8ByteSize ≤ (joinPath path name).utf8ByteSize := by
  rw [joinPath]
  split
  · exact Nat.le_of_eq String.utf8ByteSize_append.symm
  · rw [String.utf8ByteSize_append, String.utf8ByteSize_append]
    omega

theorem size_le_foldl_joinPath (path : String) (names : List String) :
    path.utf8ByteSize ≤ (names.foldl joinPath path).utf8ByteSize := by
  induction names generalizing path with
  | nil => exact Nat.le_refl _
  | cons name names ih =>
    have hjoin := size_add_le_joinPath path name
    exact Nat.le_trans (by omega) (ih (joinPath path name))

/-! ## One directory -/

/-- The directories that are entered, in ascending order. -/
def entered (c : Config) (entries : List (String × Entry)) : List (String × Entry) :=
  (entries.filter fun x => x.2.isDir && c.enters x.1).mergeSort fun a b => a.1 ≤ b.1

theorem foundBelow_eq (path : String) (entries : List (String × Entry)) :
    foundBelow c path entries =
      (entries.filter fun x => x.2.isDir && c.enters x.1).map fun x =>
        (x.1, x.2.found c (joinPath path x.1)) := by
  induction entries with
  | nil => rfl
  | cons x entries ih =>
    rw [foundBelow, List.filter_cons]
    split
    · rw [List.map_cons, ih]
    · exact ih

theorem isOpen_iff {path : String} {listed : Bool} :
    isOpen path listed ↔ listed = true ∧ path.utf8ByteSize < pathLimit := by
  rw [isOpen, Bool.and_eq_true, decide_eq_true_iff]

/-- The walk over a directory: its files, and then the walks over its directories. -/
theorem found_dir {path : String} {listed : Bool} (h : isOpen path listed)
    (entries : List (String × Entry)) :
    (Entry.dir entries listed).found c path =
      (takenFiles c entries).map (joinPath path) ++
        (entered c entries).flatMap fun x => x.2.found c (joinPath path x.1) := by
  rw [found, if_pos h, foundBelow_eq]
  dsimp only
  rw [← List.map_mergeSort (r := fun a b => decide (a.1 ≤ b.1)) fun _ _ _ _ => rfl, List.flatMap_map,
    entered]

theorem found_of_not_isOpen {path : String} {listed : Bool} (h : ¬ isOpen path listed)
    (entries : List (String × Entry)) : (Entry.dir entries listed).found c path = [] := by
  rw [found, if_neg h]

theorem mem_takenFiles {entries : List (String × Entry)} {name : String} :
    name ∈ takenFiles c entries ↔ (∃ bytes, (name, .file bytes) ∈ entries) ∧ c.takes name := by
  rw [takenFiles, List.mem_mergeSort, List.mem_map]
  constructor
  · rintro ⟨⟨name, e⟩, hmem, rfl⟩
    obtain ⟨hmem, htest⟩ := List.mem_filter.mp hmem
    cases e with
    | file bytes => exact ⟨⟨bytes, hmem⟩, by simpa [isDir] using htest⟩
    | dir inner listed => simp [isDir] at htest
  · rintro ⟨⟨bytes, hmem⟩, htakes⟩
    exact ⟨(name, .file bytes), List.mem_filter.mpr ⟨hmem, by simpa [isDir] using htakes⟩, rfl⟩

theorem mem_entered {entries : List (String × Entry)} {x : String × Entry} :
    x ∈ entered c entries ↔ x ∈ entries ∧ x.2.isDir ∧ c.enters x.1 := by
  rw [entered, List.mem_mergeSort, List.mem_filter, Bool.and_eq_true]

/-- Things with different names are sorted into strictly ascending order of their names. -/
theorem pairwise_mergeSort_lt {α : Type} (name : α → String) {l : List α}
    (h : (l.map name).Nodup) :
    (l.mergeSort fun a b => name a ≤ name b).Pairwise fun a b => name a < name b := by
  have hsorted : (l.mergeSort fun a b => name a ≤ name b).Pairwise fun a b =>
      decide (name a ≤ name b) = true := by
    refine List.pairwise_mergeSort (fun a b c hab hbc => ?_) (fun a b => ?_) l
    · exact decide_eq_true (String.le_trans (of_decide_eq_true hab) (of_decide_eq_true hbc))
    · simpa using String.le_total (name a) (name b)
  have hdistinct :
      (l.mergeSort fun a b => name a ≤ name b).Pairwise fun a b => name a ≠ name b := by
    have hperm := (List.mergeSort_perm l fun a b => name a ≤ name b).map name
    exact List.pairwise_map.mp (hperm.symm.nodup h)
  refine (hsorted.and hdistinct).imp fun ⟨hle, hne⟩ => ?_
  rw [← String.not_le]
  exact fun hge => hne (String.le_antisymm (of_decide_eq_true hle) hge)

section Sorted

variable {entries : List (String × Entry)} (h : (entries.map Prod.fst).Nodup)
include h

theorem pairwise_takenFiles : (takenFiles c entries).Pairwise (· < ·) :=
  pairwise_mergeSort_lt id (by
    rw [List.map_id]
    exact h.sublist (List.filter_sublist.map Prod.fst))

theorem pairwise_entered : (entered c entries).Pairwise fun a b => a.1 < b.1 :=
  pairwise_mergeSort_lt Prod.fst (h.sublist (List.filter_sublist.map Prod.fst))

end Sorted

/-! ## The whole walk -/

/-- The routes, in order, of what a walk finds. -/
structure Lists (c : Config) (path : String) (e : Entry) (rs : List Route) : Prop where
  found : e.found c path = rs.map (Route.path path)
  sorted : rs.Pairwise Route.Before
  complete : ∀ r, r ∈ rs ↔ Reaches c path e r

theorem Reaches.isDir {path : String} {e : Entry} {r : Route} (h : Reaches c path e r) :
    e.isDir := by
  obtain ⟨entries, bytes, hleads, -⟩ := h
  generalize r.dirs = names at hleads
  cases hleads <;> rfl

section Open

variable {path : String} {entries : List (String × Entry)} {listed : Bool}

/-- A directory from which a file is reached is looked into. -/
theorem Reaches.isOpen {r : Route} (h : Reaches c path (.dir entries listed) r) :
    isOpen path listed := by
  obtain ⟨inner, bytes, hleads, -, -, hshort⟩ := h
  have hpath := Nat.lt_of_le_of_lt (size_le_foldl_joinPath path r.dirs) hshort
  generalize r.dirs = names at hleads
  cases hleads <;> exact isOpen_iff.mpr ⟨rfl, hpath⟩

variable (h : Entry.isOpen path listed)
include h

theorem reaches_file_iff {file : String} :
    Reaches c path (.dir entries listed) ⟨[], file⟩ ↔ file ∈ takenFiles c entries := by
  rw [mem_takenFiles]
  constructor
  · rintro ⟨inner, bytes, hleads, hmem, htakes, -⟩
    cases hleads
    exact ⟨⟨bytes, hmem⟩, htakes⟩
  · rintro ⟨⟨bytes, hmem⟩, htakes⟩
    obtain ⟨rfl, hshort⟩ := isOpen_iff.mp h
    exact ⟨entries, bytes, .here _, hmem, htakes, hshort⟩

theorem reaches_under_iff {name file : String} {names : List String} :
    Reaches c path (.dir entries listed) ⟨name :: names, file⟩ ↔
      ∃ below, (name, below) ∈ entered c entries ∧
        Reaches c (joinPath path name) below ⟨names, file⟩ := by
  constructor
  · rintro ⟨inner, bytes, hleads, hmem, htakes, hshort⟩
    cases hleads with
    | enter hbelow hdir henters hleads =>
      exact ⟨_, mem_entered.mpr ⟨hbelow, hdir, henters⟩, inner, bytes, hleads, hmem, htakes, hshort⟩
  · rintro ⟨below, hentered, inner, bytes, hleads, hmem, htakes, hshort⟩
    obtain ⟨hbelow, hdir, henters⟩ := mem_entered.mp hentered
    obtain ⟨rfl, -⟩ := isOpen_iff.mp h
    exact ⟨inner, bytes, .enter hbelow hdir henters hleads, hmem, htakes, hshort⟩

/-- The routes of a directory, given those of the directories in it. -/
theorem Lists.dir (distinct : (entries.map Prod.fst).Nodup) {routes : String × Entry → List Route}
    (hroutes : ∀ x ∈ entries, Lists c (joinPath path x.1) x.2 (routes x)) :
    Lists c path (.dir entries listed)
      ((takenFiles c entries).map (Route.mk []) ++
        (entered c entries).flatMap fun x => (routes x).map (Route.under x.1)) where
  found := by
    rw [found_dir h, List.map_append, List.map_map, List.map_flatMap, List.flatMap_def,
      List.flatMap_def]
    refine congrArg _ (congrArg List.flatten (List.map_congr_left fun x hx => ?_))
    rw [(hroutes x (mem_entered.mp hx).1).found, List.map_map]
    rfl
  sorted := by
    refine List.pairwise_append.mpr ⟨?_, List.pairwise_flatMap.mpr ⟨fun x hx => ?_, ?_⟩, ?_⟩
    · exact List.pairwise_map.mpr (pairwise_takenFiles distinct)
    · exact List.pairwise_map.mpr ((hroutes x (mem_entered.mp hx).1).sorted.imp fun hbefore =>
        .inr ⟨rfl, hbefore⟩)
    · refine (pairwise_entered distinct).imp fun hlt r hr s hs => ?_
      obtain ⟨r, -, rfl⟩ := List.mem_map.mp hr
      obtain ⟨s, -, rfl⟩ := List.mem_map.mp hs
      exact .inl hlt
    · intro r hr s hs
      obtain ⟨file, -, rfl⟩ := List.mem_map.mp hr
      obtain ⟨x, -, hs⟩ := List.mem_flatMap.mp hs
      obtain ⟨s, -, rfl⟩ := List.mem_map.mp hs
      exact trivial
  complete := by
    rintro ⟨names, file⟩
    rw [List.mem_append, List.mem_map, List.mem_flatMap]
    cases names with
    | nil =>
      rw [reaches_file_iff h]
      constructor
      · rintro (⟨file', hfile, heq⟩ | ⟨x, -, hr⟩)
        · cases heq
          exact hfile
        · obtain ⟨r, -, heq⟩ := List.mem_map.mp hr
          cases heq
      · exact fun hfile => .inl ⟨file, hfile, rfl⟩
    | cons name names =>
      rw [reaches_under_iff h]
      constructor
      · rintro (⟨file', -, heq⟩ | ⟨x, hx, hr⟩)
        · cases heq
        · obtain ⟨r, hmem, heq⟩ := List.mem_map.mp hr
          cases heq
          exact ⟨x.2, hx, ((hroutes x (mem_entered.mp hx).1).complete r).mp hmem⟩
      · rintro ⟨below, hbelow, hreaches⟩
        have hlists := hroutes _ (mem_entered.mp hbelow).1
        exact .inr ⟨_, hbelow, List.mem_map.mpr ⟨_, (hlists.complete _).mpr hreaches, rfl⟩⟩

end Open

/-- Every walk over a well-formed tree lists the routes of all files that are reached. -/
theorem exists_lists {e : Entry} (hwell : e.WellFormed) (c : Config) (path : String) :
    ∃ rs, Lists c path e rs := by
  induction hwell generalizing path with
  | file bytes =>
    refine ⟨[], rfl, .nil, fun ⟨names, last⟩ => ⟨nofun, ?_⟩⟩
    rintro ⟨entries, bytes, hleads, -⟩
    cases hleads
  | @dir entries listed distinct names below ih =>
    by_cases h : isOpen path listed
    · have hbelow : ∀ x : String × Entry, ∃ rs,
          x ∈ entries → Lists c (joinPath path x.1) x.2 rs := by
        intro x
        by_cases hx : x ∈ entries
        · obtain ⟨rs, hrs⟩ := ih x hx (joinPath path x.1)
          exact ⟨rs, fun _ => hrs⟩
        · exact ⟨[], fun hmem => absurd hmem hx⟩
      obtain ⟨routes, hroutes⟩ := Classical.axiomOfChoice hbelow
      exact ⟨_, .dir h distinct hroutes⟩
    · exact ⟨[], found_of_not_isOpen h _, .nil,
        fun r => ⟨nofun, fun hr => absurd hr.isOpen h⟩⟩

/-! ## The depth of a walk -/

theorem lt_levelsBelow_iff {path : String} {entries : List (String × Entry)} {n : Nat} :
    n < levelsBelow c path entries ↔
      ∃ x ∈ entries, x.2.isDir ∧ c.enters x.1 ∧ n ≤ x.2.levels c (joinPath path x.1) := by
  induction entries with
  | nil => exact ⟨nofun, nofun⟩
  | cons x entries ih =>
    simp only [List.mem_cons, or_and_right, exists_or, exists_eq_left, ← ih]
    rw [levelsBelow]
    split
    · rename_i h
      rw [Bool.and_eq_true] at h
      rw [← and_assoc, and_iff_right h]
      omega
    · rename_i h
      rw [Bool.and_eq_true] at h
      rw [← and_assoc, or_iff_right fun hx => h hx.1]

theorem lt_levels_iff {path : String} {e : Entry} {n : Nat} :
    n < e.levels c path ↔
      path.utf8ByteSize < pathLimit ∧
        ∃ entries, e = .dir entries true ∧ n < levelsBelow c path entries := by
  cases e with
  | file bytes => exact ⟨nofun, nofun⟩
  | dir entries listed =>
    rw [levels]
    split
    · rename_i h
      obtain ⟨rfl, hshort⟩ := isOpen_iff.mp h
      refine ⟨fun hn => ⟨hshort, entries, rfl, hn⟩, ?_⟩
      rintro ⟨-, inner, heq, hn⟩
      cases heq
      exact hn
    · rename_i h
      refine ⟨nofun, ?_⟩
      rintro ⟨hshort, inner, heq, -⟩
      cases heq
      exact absurd (isOpen_iff.mpr ⟨rfl, hshort⟩) h

/-- A walk enters as many directories one below the other as stand in some chain. Each but the last
has a path that is short enough to be looked into. -/
theorem lt_levels_iff_leads {path : String} {e : Entry} {n : Nat} :
    n < e.levels c path ↔
      ∃ names target, Leads c e names target ∧ names.length = n + 1 ∧
        (names.dropLast.foldl joinPath path).utf8ByteSize < pathLimit := by
  induction n generalizing path e with
  | zero =>
    rw [lt_levels_iff]
    constructor
    · rintro ⟨hshort, entries, rfl, hlt⟩
      obtain ⟨x, hmem, hdir, henters, -⟩ := lt_levelsBelow_iff.mp hlt
      exact ⟨[x.1], x.2, .enter hmem hdir henters (.here _), rfl, hshort⟩
    · rintro ⟨names, target, hleads, hlength, hshort⟩
      cases hleads with
      | here => cases hlength
      | @enter entries name below target names hmem hdir henters hleads =>
        cases names with
        | nil =>
          exact ⟨hshort, entries, rfl,
            lt_levelsBelow_iff.mpr ⟨_, hmem, hdir, henters, Nat.zero_le _⟩⟩
        | cons => cases hlength
  | succ n ih =>
    rw [lt_levels_iff]
    constructor
    · rintro ⟨hshort, entries, rfl, hlt⟩
      obtain ⟨x, hmem, hdir, henters, hlt⟩ := lt_levelsBelow_iff.mp hlt
      obtain ⟨names, target, hleads, hlength, hlast⟩ := ih.mp hlt
      refine ⟨x.1 :: names, target, .enter hmem hdir henters hleads, by simp [hlength], ?_⟩
      cases names with
      | nil => cases hlength
      | cons name names => exact hlast
    · rintro ⟨names, target, hleads, hlength, hshort⟩
      cases hleads with
      | here => cases hlength
      | @enter entries name below target names hmem hdir henters hleads =>
        cases names with
        | nil => cases hlength
        | cons name' names =>
          rw [List.dropLast_cons_cons] at hshort
          have hlevels := ih.mpr ⟨_, target, hleads, by simpa using hlength, hshort⟩
          refine ⟨?_, entries, rfl, lt_levelsBelow_iff.mpr ⟨_, hmem, hdir, henters, hlevels⟩⟩
          exact Nat.lt_of_le_of_lt (size_le_foldl_joinPath path _) hshort

end Entry

end CommentTypes
