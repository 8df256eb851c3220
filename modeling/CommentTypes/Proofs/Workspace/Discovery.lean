import CommentTypes.Proofs.Workspace.Walk

/-!
# The files that paths stand for

The list of files has each path at the place of its first appearance in the walks
(`pairwise_idxOf_eraseDups`), and a path that was listed stands for itself
(`not_isDirectory_of_reaches`), so listing the list again changes nothing (`discovered_files`). There
is always a list, unless the system limits the depth of walks (`isTooDeep_iff`).

A directory is not looked into if it cannot be listed, or if its path, as it is walked, has as many
bytes as `pathLimit`, however short the names below it are (`discover_below_long_path`).
-/

namespace CommentTypes

/-! ## First appearances -/

section First

variable {α : Type} [BEq α] [LawfulBEq α]

theorem idxOf_lt_of_filter {keep : α → Bool} {l : List α} {a b : α} (ha : keep a) (hb : keep b)
    (h : (l.filter keep).idxOf a < (l.filter keep).idxOf b) : l.idxOf a < l.idxOf b := by
  induction l with
  | nil => cases h
  | cons x l ih =>
    by_cases hx : keep x
    · rw [List.filter_cons_of_pos hx] at h
      rw [List.idxOf_cons, List.idxOf_cons] at h ⊢
      cases hxa : x == a <;> cases hxb : x == b <;>
        simp only [hxa, hxb, cond_true, cond_false] at h ⊢ <;> omega
    · rw [List.filter_cons_of_neg hx] at h
      have hxa : (x == a) = false := beq_false_of_ne fun e => hx (e ▸ ha)
      have hxb : (x == b) = false := beq_false_of_ne fun e => hx (e ▸ hb)
      rw [List.idxOf_cons, List.idxOf_cons, hxa, hxb]
      exact Nat.succ_lt_succ (ih h)

/-- Without its repetitions a list has its items in the order of their first appearance. -/
theorem pairwise_idxOf_eraseDups (l : List α) :
    l.eraseDups.Pairwise fun a b => l.idxOf a < l.idxOf b := by
  induction hlength : l.length using Nat.strongRecOn generalizing l with
  | ind n ih =>
    cases l with
    | nil => rw [List.eraseDups_nil]; exact .nil
    | cons x l =>
      have hshorter : (l.filter fun b => !b == x).length < n := by
        rw [← hlength]
        exact Nat.lt_succ_of_le (List.length_filter_le ..)
      have hother {a : α} (ha : a ∈ (l.filter fun b => !b == x).eraseDups) : (!a == x) = true :=
        (List.mem_filter.mp (List.mem_eraseDups.mp ha)).2
      have hne {a : α} (ha : (!a == x) = true) : (x == a) = false :=
        beq_false_of_ne fun e => by simp [e] at ha
      rw [List.eraseDups_cons, List.pairwise_cons]
      refine ⟨fun b hb => ?_, (ih _ hshorter _ rfl).imp_of_mem fun ha hb h => ?_⟩
      · rw [List.idxOf_cons_self, List.idxOf_cons, hne (hother hb)]
        exact Nat.succ_pos _
      · rw [List.idxOf_cons, List.idxOf_cons, hne (hother ha), hne (hother hb)]
        exact Nat.succ_lt_succ (idxOf_lt_of_filter (hother ha) (hother hb) h)

theorem nodup_eraseDups (l : List α) : l.eraseDups.Nodup := by
  refine List.nodup_iff_pairwise_ne.mpr ((pairwise_idxOf_eraseDups l).imp fun h => ?_)
  rintro rfl
  exact Nat.lt_irrefl _ h

theorem eraseDups_of_nodup {l : List α} (h : l.Nodup) : l.eraseDups = l := by
  induction l with
  | nil => exact List.eraseDups_nil
  | cons x l ih =>
    obtain ⟨hx, hl⟩ := List.nodup_cons.mp h
    have hkeep : (l.filter fun b => !b == x) = l :=
      List.filter_eq_self.mpr fun a ha => by
        simpa using fun e : a = x => hx (e ▸ ha)
    rw [List.eraseDups_cons, hkeep, ih hl]

end First

namespace Workspace

variable {w : Workspace} {c : Config}

/-! ## What a path stands for -/

theorem isDirectory_iff {path : String} :
    w.isDirectory path ↔ ∃ entries listed, w.entry path = .ok (.dir entries listed) := by
  rw [isDirectory]
  constructor
  · intro h
    split at h
    · rename_i e hentry
      cases e with
      | file bytes => cases h
      | dir entries listed => exact ⟨entries, listed, hentry⟩
    · cases h
  · rintro ⟨entries, listed, hentry⟩
    rw [hentry]
    rfl

theorem expand_of_not_isDirectory {path : String} (h : ¬ w.isDirectory path) :
    w.expand c path = [path] := by
  rw [expand]
  split
  · exact absurd (isDirectory_iff.mpr ⟨_, _, ‹_›⟩) h
  · rfl

theorem expand_of_isDir {path : String} {e : Entry} (h : w.entry path = .ok e) (hdir : e.isDir) :
    w.expand c path = e.found c path := by
  cases e with
  | file bytes => cases hdir
  | dir entries listed => rw [expand, h]

/-- A directory goes too deep if a chain of directories that are entered below it has one more than
the limit allows, and each but the last of them is looked into. -/
theorem isTooDeep_iff {path : String} :
    w.isTooDeep c path ↔
      ∃ most ∈ w.limits.levels, ∃ e names target, w.entry path = .ok e ∧ e.Leads c names target ∧
        names.length = most + 1 ∧
        (names.dropLast.foldl joinPath path).utf8ByteSize < pathLimit := by
  rw [isTooDeep]
  split
  · rename_i e hentry
    rw [Bool.not_eq_true', Limit.allows_eq_false]
    refine exists_congr fun most => and_congr_right fun _ => ?_
    rw [Entry.lt_levels_iff_leads]
    constructor
    · rintro ⟨names, target, h⟩
      exact ⟨e, names, target, hentry, h⟩
    · rintro ⟨e', names, target, he, h⟩
      rw [hentry] at he
      cases he
      exact ⟨names, target, h⟩
  · rename_i hentry
    refine ⟨nofun, ?_⟩
    rintro ⟨most, -, e, names, target, he, -⟩
    rw [hentry] at he
    cases he

/-! ## Where routes lead -/

theorem head?_joinPath {path : String} (h : path ≠ "") (name : String) :
    (joinPath path name).toList.head? = path.toList.head? := by
  obtain ⟨first, rest, hpath⟩ := List.exists_cons_of_ne_nil (mt String.toList_eq_nil_iff.mp h)
  rw [joinPath]
  split
  · rw [String.toList_append, hpath, List.cons_append, List.head?_cons, List.head?_cons]
  · rw [String.toList_append, String.toList_append, hpath, List.cons_append, List.cons_append,
      List.head?_cons, List.head?_cons]

theorem joinPath_ne_empty {path : String} (h : path ≠ "") (name : String) :
    joinPath path name ≠ "" := by
  intro heq
  have hhead := head?_joinPath h name
  rw [heq] at hhead
  exact h (String.toList_eq_nil_iff.mp (List.head?_eq_none_iff.mp hhead.symm))

/-- The path of what a chain of names leads to starts where the path of the directory does. -/
theorem origin_foldl_joinPath (w : Workspace) {path : String} (h : path ≠ "")
    (names : List String) :
    w.origin (names.foldl joinPath path) = w.origin path := by
  induction names generalizing path with
  | nil => rfl
  | cons name names ih =>
    rw [List.foldl_cons, ih (joinPath_ne_empty h name), origin, origin, head?_joinPath h]

theorem follow_leads {root : Entry} {start trail : Trail} {path : String}
    (h : follow root start (pathParts path) = .ok trail)
    (hwell : (trail.target root).WellFormed) {names : List String} {entries : List (String × Entry)}
    (hleads : Entry.Leads c (trail.target root) names (.dir entries true)) :
    ∃ last, follow root start (pathParts (names.foldl joinPath path)) = .ok last ∧
      last.target root = .dir entries true ∧ (Entry.dir entries true).WellFormed := by
  generalize htarget : trail.target root = e at hleads hwell
  generalize hlast : Entry.dir entries true = target at hleads
  induction hleads generalizing path trail with
  | here e =>
    subst hlast
    exact ⟨trail, h, htarget, hwell⟩
  | @enter inner name below target names hmem hdir henters hleads ih =>
    have hname := follow_name htarget hwell hmem
    cases hwell with
    | dir distinct hnames hbelow =>
      rw [← follow_joinPath h (hnames _ hmem).noSlash] at hname
      exact ih hname rfl (hbelow _ hmem) hlast

/-- The path of a file that is reached leads to no directory. -/
theorem not_isDirectory_of_reaches (hw : w.root.WellFormed) {path : String} {e : Entry} {r : Route}
    (hentry : w.entry path = .ok e) (h : e.Reaches c path r) : ¬ w.isDirectory (r.path path) := by
  intro hdir
  obtain ⟨inner, listed, hinner⟩ := isDirectory_iff.mp hdir
  obtain ⟨last, hlast, htarget⟩ := entry_eq_ok.mp hinner
  have hwell := wellFormed_of_entry hw hentry
  obtain ⟨trail, htrail, rfl⟩ := entry_eq_ok.mp hentry
  obtain ⟨hne, -, start, horigin, hfollow⟩ := locate_eq_ok.mp htrail
  obtain ⟨-, -, start', horigin', hfollow'⟩ := locate_eq_ok.mp hlast
  obtain ⟨entries, bytes, hleads, hmem, -, -⟩ := h
  obtain ⟨middle, hmiddle, hentries, hwell⟩ := follow_leads hfollow hwell hleads
  have hname := follow_name hentries hwell hmem
  cases hwell with
  | dir distinct hnames hbelow =>
    have hstart : w.origin (r.path path) = w.origin path := by
      have hfold := origin_foldl_joinPath w hne (r.dirs ++ [r.file])
      rwa [List.foldl_append] at hfold
    rw [hstart, horigin] at horigin'
    cases horigin'
    rw [Route.path, follow_joinPath hmiddle (hnames _ hmem).noSlash, hname] at hfollow'
    cases hfollow'
    cases htarget

/-! ## The list of files -/

/-- A path that is listed stands for itself. -/
theorem not_isDirectory_of_mem_expand (hw : w.root.WellFormed) {path f : String}
    (h : f ∈ w.expand c path) :
    ¬ w.isDirectory f := by
  by_cases hdir : w.isDirectory path
  · obtain ⟨entries, listed, hentry⟩ := isDirectory_iff.mp hdir
    obtain ⟨rs, hrs⟩ := Entry.exists_lists (wellFormed_of_entry hw hentry) c path
    rw [expand_of_isDir hentry rfl, hrs.found] at h
    obtain ⟨r, hr, rfl⟩ := List.mem_map.mp h
    exact not_isDirectory_of_reaches hw hentry ((hrs.complete r).mp hr)
  · rw [expand_of_not_isDirectory hdir] at h
    rwa [List.mem_singleton.mp h]

theorem mem_expand_iff (hw : w.root.WellFormed) {path f : String} :
    f ∈ w.expand c path ↔
      (f = path ∧ ¬ w.isDirectory f) ∨
        ∃ e r, w.entry path = .ok e ∧ e.Reaches c path r ∧ f = r.path path := by
  by_cases hdir : w.isDirectory path
  · obtain ⟨entries, listed, hentry⟩ := isDirectory_iff.mp hdir
    obtain ⟨rs, hrs⟩ := Entry.exists_lists (wellFormed_of_entry hw hentry) c path
    rw [expand_of_isDir hentry rfl, hrs.found, List.mem_map]
    constructor
    · rintro ⟨r, hr, rfl⟩
      exact .inr ⟨.dir entries listed, r, hentry, (hrs.complete r).mp hr, rfl⟩
    · rintro (⟨rfl, hnot⟩ | ⟨e, r, he, hreaches, rfl⟩)
      · exact absurd hdir hnot
      · rw [hentry] at he
        cases he
        exact ⟨r, (hrs.complete r).mpr hreaches, rfl⟩
  · rw [expand_of_not_isDirectory hdir, List.mem_singleton]
    constructor
    · rintro rfl
      exact .inl ⟨rfl, hdir⟩
    · rintro (⟨rfl, -⟩ | ⟨e, r, he, hreaches, rfl⟩)
      · rfl
      · have hisDir := hreaches.isDir
        cases e with
        | file bytes => cases hisDir
        | dir entries listed => exact absurd (isDirectory_iff.mpr ⟨entries, listed, he⟩) hdir

theorem mem_discover_iff (hw : w.root.WellFormed) {ps : List String} {f : String} :
    f ∈ w.discover c ps ↔
      (f ∈ ps ∧ ¬ w.isDirectory f) ∨
        ∃ p ∈ ps, ∃ e r, w.entry p = .ok e ∧ e.Reaches c p r ∧ f = r.path p := by
  rw [discover, List.mem_eraseDups, List.mem_flatMap]
  constructor
  · rintro ⟨p, hp, hmem⟩
    rcases (mem_expand_iff hw).mp hmem with ⟨rfl, hdir⟩ | hreached
    · exact .inl ⟨hp, hdir⟩
    · exact .inr ⟨p, hp, hreached⟩
  · rintro (⟨hp, hdir⟩ | ⟨p, hp, hreached⟩)
    · exact ⟨f, hp, (mem_expand_iff hw).mpr (.inl ⟨rfl, hdir⟩)⟩
    · exact ⟨p, hp, (mem_expand_iff hw).mpr (.inr hreached)⟩

theorem discover?_eq_some {ps fs : List String} :
    w.discover? c ps = some fs ↔ (∀ p ∈ ps, ¬ w.isTooDeep c p) ∧ w.discover c ps = fs := by
  rw [discover?]
  split
  · rename_i h
    obtain ⟨p, hp, hdeep⟩ := List.any_eq_true.mp h
    exact ⟨nofun, fun h => absurd hdeep (h.1 p hp)⟩
  · rename_i h
    rw [Option.some.injEq]
    exact ⟨fun hfs => ⟨fun p hp hdeep => h (List.any_eq_true.mpr ⟨p, hp, hdeep⟩), hfs⟩, And.right⟩

theorem discover?_eq_none {ps : List String} :
    w.discover? c ps = none ↔ ∃ p ∈ ps, w.isTooDeep c p := by
  rw [discover?]
  split
  · exact ⟨fun _ => List.any_eq_true.mp ‹_›, fun _ => rfl⟩
  · exact ⟨nofun, fun h => absurd (List.any_eq_true.mpr h) ‹_›⟩

theorem not_isTooDeep {path : String} (h : ¬ w.isDirectory path) : ¬ w.isTooDeep c path := by
  rw [isTooDeep_iff]
  rintro ⟨most, -, e, names, target, hentry, hleads, hlength, -⟩
  cases hleads with
  | here => cases hlength
  | enter => exact h (isDirectory_iff.mpr ⟨_, _, hentry⟩)

/-- Where walks are not limited there is always a list. -/
theorem discover?_of_unlimited (h : w.limits.levels = none) (ps : List String) :
    w.discover? c ps = some (w.discover c ps) := by
  refine discover?_eq_some.mpr ⟨fun p hp hdeep => ?_, rfl⟩
  obtain ⟨most, hmost, -⟩ := isTooDeep_iff.mp hdeep
  rw [h] at hmost
  cases hmost

/-- Paths that stand for themselves are listed as they are, each once. -/
theorem discover?_of_not_isDirectory {fs : List String} (hnodup : fs.Nodup)
    (h : ∀ f ∈ fs, ¬ w.isDirectory f) : w.discover? c fs = some fs := by
  refine discover?_eq_some.mpr ⟨fun f hf => not_isTooDeep (h f hf), ?_⟩
  have hexpand : fs.flatMap (w.expand c) = fs := by
    clear hnodup
    induction fs with
    | nil => rfl
    | cons f fs ih =>
      obtain ⟨hf, hfs⟩ := List.forall_mem_cons.mp h
      rw [List.flatMap_cons, expand_of_not_isDirectory hf, ih hfs, List.singleton_append]
  rw [discover, hexpand, eraseDups_of_nodup hnodup]

/-- The files that paths stand for. The list has each file once, and exactly the paths that are no
directories and the files reached from those that are; they come in the order of their first
appearance in the walks, path by path. More paths go on with the list, and a list stands for itself.
This list is given, unless the depth of walks is limited and a path has a chain of directories below
it with one more than the limit. -/
theorem discovered_files (hw : w.root.WellFormed) (c : Config) (ps : List String) :
    (∀ p, ¬ w.isDirectory p → w.expand c p = [p]) ∧
    (∀ p e, w.entry p = .ok e → e.isDir →
      ∃ rs : List Route, w.expand c p = rs.map (Route.path p) ∧ rs.Pairwise Route.Before ∧
        ∀ r, r ∈ rs ↔ e.Reaches c p r) ∧
    (w.discover c ps).Nodup ∧
    (∀ f, f ∈ w.discover c ps ↔
      (f ∈ ps ∧ ¬ w.isDirectory f) ∨
        ∃ p ∈ ps, ∃ e r, w.entry p = .ok e ∧ e.Reaches c p r ∧ f = r.path p) ∧
    (w.discover c ps).Pairwise (fun f g =>
      (ps.flatMap (w.expand c)).idxOf f < (ps.flatMap (w.expand c)).idxOf g) ∧
    (∀ qs, w.discover c ps <+: w.discover c (ps ++ qs)) ∧
    w.discover? c (w.discover c ps) = some (w.discover c ps) ∧
    (∀ fs, w.discover? c ps = some fs → fs = w.discover c ps) ∧
    (w.discover? c ps = none ↔
      ∃ most ∈ w.limits.levels, ∃ p ∈ ps, ∃ e names target, w.entry p = .ok e ∧
        e.Leads c names target ∧ names.length = most + 1 ∧
        (names.dropLast.foldl joinPath p).utf8ByteSize < pathLimit) := by
  refine ⟨fun p => expand_of_not_isDirectory, fun p e hentry hdir => ?_, nodup_eraseDups _,
    fun f => mem_discover_iff hw, pairwise_idxOf_eraseDups _, fun qs => ?_, ?_, fun fs hfs => ?_, ?_⟩
  · obtain ⟨rs, hrs⟩ := Entry.exists_lists (wellFormed_of_entry hw hentry) c p
    exact ⟨rs, (expand_of_isDir hentry hdir).trans hrs.found, hrs.sorted, hrs.complete⟩
  · rw [discover, discover, List.flatMap_append, List.eraseDups_append]
    exact List.prefix_append _ _
  · refine discover?_of_not_isDirectory (nodup_eraseDups _) fun f hf => ?_
    obtain ⟨p, -, hmem⟩ := List.mem_flatMap.mp (List.mem_eraseDups.mp hf)
    exact not_isDirectory_of_mem_expand hw hmem
  · exact (discover?_eq_some.mp hfs).2.symm
  · rw [discover?_eq_none]
    constructor
    · rintro ⟨p, hp, hdeep⟩
      obtain ⟨most, hmost, hchain⟩ := isTooDeep_iff.mp hdeep
      exact ⟨most, hmost, p, hp, hchain⟩
    · rintro ⟨most, hmost, p, hp, hchain⟩
      exact ⟨p, hp, isTooDeep_iff.mpr ⟨most, hmost, hchain⟩⟩

/-- A tree with a hidden and an excluded directory, one that cannot be listed, and a file that is not
taken, on a system that enters at most two directories one below the other. -/
def sampleTree : Workspace :=
  { root := .dir
      [("src", .dir
        [("lib", .dir [("c.js", .file []), ("safe", .dir [("d.js", .file [])] false)]),
         ("b.js", .file []), ("notes.txt", .file []), ("node_modules", .dir [("e.js", .file [])]),
         (".git", .dir [("f.js", .file [])])])]
    limits := { levels := some 2 } }

theorem wellFormed_sampleTree : sampleTree.root.WellFormed := by
  have hsingle {name : String} {listed : Bool} (h : IsEntryName name) :
      (Entry.dir [(name, .file [])] listed).WellFormed :=
    .dir (by simp) (by simpa using h) (by simpa using .file [])
  refine .dir (by decide) (by decide +kernel) ?_
  simp only [List.forall_mem_cons]
  refine ⟨.dir (by decide) (by decide +kernel) ?_, nofun⟩
  simp only [List.forall_mem_cons]
  refine ⟨.dir (by decide) (by decide +kernel) ?_, .file _, .file _, hsingle (by decide +kernel),
    hsingle (by decide +kernel), nofun⟩
  simp only [List.forall_mem_cons]
  exact ⟨.file _, hsingle (by decide +kernel), nofun⟩

/-- A file, a directory above it under two paths, and a path that leads nowhere. -/
def samplePaths : List String :=
  ["src/lib/c.js", "src", "gone.txt", "./src/"]

/-- A file that is given and found again is listed where it was given. From the current directory the
tree goes deeper than the system does. -/
theorem discovered_files_sampleTree :
    (sampleTree.discover? {} samplePaths =
        some ["src/lib/c.js", "src/b.js", "gone.txt", "./src/b.js", "./src/lib/c.js"] ∧
      (sampleTree.discover {} samplePaths).Nodup ∧
      sampleTree.discover {} samplePaths <+: sampleTree.discover {} (samplePaths ++ ["src/lib"]) ∧
      sampleTree.discover? {} (sampleTree.discover {} samplePaths) =
        some (sampleTree.discover {} samplePaths)) ∧
    sampleTree.discover? {} ["src", "."] = none ∧
    ∃ p ∈ ["src", "."], ∃ e names target, sampleTree.entry p = .ok e ∧ e.Leads {} names target ∧
      names.length = 3 := by
  have hdeep : sampleTree.discover? {} ["src", "."] = none := by decide +kernel
  obtain ⟨-, -, hnodup, -, -, hgrows, hagain, -⟩ :=
    discovered_files wellFormed_sampleTree {} samplePaths
  obtain ⟨-, -, -, -, -, -, -, -, hnone⟩ := discovered_files wellFormed_sampleTree {} ["src", "."]
  refine ⟨⟨by decide +kernel, hnodup, hgrows _, hagain⟩, hdeep, ?_⟩
  obtain ⟨most, hmost, p, hp, e, names, target, hentry, hleads, hlength, -⟩ := hnone.mp hdeep
  cases hmost
  exact ⟨p, hp, e, names, target, hentry, hleads, hlength⟩

/-! ## Paths that are too long to look into -/

/-- A path with slashes after it. -/
def slashed (path : String) (n : Nat) : String :=
  path ++ String.ofList (List.replicate n '/')

theorem slashed_succ (path : String) (n : Nat) :
    slashed path (n + 1) = slashed path n ++ "/" ++ "" := by
  have hslash : String.ofList ['/'] = "/" := rfl
  rw [slashed, List.replicate_succ', String.ofList_append, hslash, String.append_empty, slashed,
    String.append_assoc]

theorem size_slashed (path : String) (n : Nat) :
    (slashed path n).utf8ByteSize = path.utf8ByteSize + n := by
  induction n with
  | zero => rw [slashed, List.replicate_zero, String.ofList_nil, String.append_empty, Nat.add_zero]
  | succ n ih =>
    have hslash : "/".utf8ByteSize = 1 := rfl
    rw [slashed_succ, String.append_empty, String.utf8ByteSize_append, ih, hslash, Nat.add_assoc]

/-- Slashes after the path of a directory lead nowhere else. -/
theorem follow_slashed {root : Entry} {start trail : Trail} {path : String}
    (h : follow root start (pathParts path) = .ok trail) (hdir : (trail.target root).isDir)
    (n : Nat) :
    follow root start (pathParts (slashed path n)) = .ok trail := by
  induction n with
  | zero => rwa [slashed, List.replicate_zero, String.ofList_nil, String.append_empty]
  | succ n ih =>
    have hidle : Turn root trail "" trail := .stay hdir rfl
    rw [slashed_succ, pathParts_slash, follow_append, ih]
    exact hidle.follow_cons []

/-- A directory in which there is only another directory with a file. -/
def nestedDir : Entry :=
  .dir [("sub", .dir [("b.js", .file [])])]

theorem found_nestedDir {path : String} (hshort : path.utf8ByteSize < pathLimit)
    (hlong : pathLimit ≤ (joinPath path "sub").utf8ByteSize) : nestedDir.found {} path = [] := by
  have hentered : Entry.entered {} [("sub", .dir [("b.js", .file [])])] =
      [("sub", .dir [("b.js", .file [])])] := by
    have henters : ({} : Config).enters "sub" = true := by decide +kernel
    rw [Entry.entered, List.filter_cons_of_pos (by simp [Entry.isDir, henters]), List.filter_nil,
      List.mergeSort_singleton]
  have htaken : Entry.takenFiles {} [("sub", .dir [("b.js", .file [])])] = [] := by decide +kernel
  have hclosed : ¬ Entry.isOpen (joinPath path "sub") true := fun h =>
    Nat.not_lt.mpr hlong (Entry.isOpen_iff.mp h).2
  rw [nestedDir, Entry.found_dir (Entry.isOpen_iff.mpr ⟨rfl, hshort⟩), htaken, hentered,
    List.map_nil, List.flatMap_singleton, Entry.found_of_not_isOpen hclosed, List.append_nil]

/-- A file is not listed that stands below a directory with slashes after its path: the directory
between them has a path of more than `pathLimit` bytes, and is not looked into. -/
theorem discover_below_long_path :
    Workspace.entry { root := .dir [("src", nestedDir)] } (slashed "src" 4092) = .ok nestedDir ∧
    nestedDir.Leads {} ["sub"] (.dir [("b.js", .file [])]) ∧ ({} : Config).takes "b.js" ∧
    Workspace.discover? { root := .dir [("src", nestedDir)] } {} [slashed "src" 4092] =
      some [] := by
  have hsize : (slashed "src" 4092).utf8ByteSize = 4095 := size_slashed "src" 4092
  have hshort : (slashed "src" 4092).utf8ByteSize < pathLimit := by
    rw [hsize]
    decide
  have hlong : pathLimit ≤ (joinPath (slashed "src" 4092) "sub").utf8ByteSize := by
    have hjoin := Entry.size_add_le_joinPath (slashed "src" 4092) "sub"
    rw [hsize] at hjoin
    exact Nat.le_trans (by decide) hjoin
  have hentry : Workspace.entry { root := .dir [("src", nestedDir)] } (slashed "src" 4092) =
      .ok nestedDir := by
    have hne : slashed "src" 4092 ≠ "" := by
      intro h
      rw [h] at hsize
      cases hsize
    have hfollow : follow (.dir [("src", nestedDir)]) [] (pathParts "src") =
        .ok [("src", nestedDir)] := rfl
    have hslashed := follow_slashed hfollow rfl 4092
    refine entry_eq_ok.mpr ⟨_, locate_eq_ok.mpr ⟨hne, hshort, [], ?_, hslashed⟩, rfl⟩
    rw [origin]
    split <;> rfl
  have henters : ({} : Config).enters "sub" = true := by decide +kernel
  refine ⟨hentry, .enter List.mem_cons_self rfl henters (.here _), by decide +kernel, ?_⟩
  rw [discover?_of_unlimited rfl, discover, List.flatMap_singleton, expand_of_isDir hentry rfl,
    found_nestedDir hshort hlong, List.eraseDups_nil]

end Workspace

end CommentTypes
