import CommentTypes.Proofs.Text.Lines
import CommentTypes.Workspace.Basic

/-!
# Paths that lead on

What a path leads to, and how it goes on with the name of an entry: the parts of the longer path are
followed from where the path leads (`follow_joinPath`). In a directory tree as a file system keeps
it (`Entry.WellFormed`) the entries of a directory have different names, none of which means
anything else in a path, so each name leads to its entry (`follow_name`).
-/

namespace CommentTypes

/-! ## The pieces of a path -/

theorem pathParts_slash (path name : String) :
    pathParts (path ++ "/" ++ name) = pathParts path ++ pathParts name := by
  have hslash : "/".toList = ['/'] := rfl
  rw [pathParts, String.toList_append, String.toList_append, hslash, List.append_assoc,
    List.singleton_append, splitOn_append_cons, List.map_append]
  rfl

theorem pathParts_name {name : String} (h : '/' ∉ name.toList) : pathParts name = [name] := by
  rw [pathParts, List.splitOn_eq_singleton h, List.map_singleton, String.ofList_toList]

/-- A path that is empty or ends with a slash has an empty last piece, in place of which the name of
an entry comes. -/
theorem pathParts_open {path : String} (h : path = "" ∨ path.toList.getLast? = some '/') :
    ∃ parts, pathParts path = parts ++ [""] ∧
      ∀ name : String, '/' ∉ name.toList → pathParts (path ++ name) = parts ++ [name] := by
  rcases h with rfl | h
  · refine ⟨[], rfl, fun name hname => ?_⟩
    rw [String.empty_append, pathParts_name hname, List.nil_append]
  · obtain ⟨cs, hcs⟩ := List.getLast?_eq_some_iff.mp h
    have hpath : path = String.ofList cs ++ "/" := by
      rw [← String.toList_inj, hcs, String.toList_append, String.toList_ofList]
      rfl
    refine ⟨pathParts (String.ofList cs), ?_, fun name hname => ?_⟩
    · have hparts := pathParts_slash (String.ofList cs) ""
      rwa [String.append_empty, ← hpath] at hparts
    · rw [hpath, pathParts_slash, pathParts_name hname]

namespace Workspace

/-! ## Following -/

theorem follow_append (root : Entry) (trail : Trail) (parts more : List String) :
    follow root trail (parts ++ more) =
      (follow root trail parts).bind fun trail => follow root trail more := by
  induction parts generalizing trail with
  | nil => rfl
  | cons part parts ih =>
    rw [List.cons_append, follow, follow]
    split
    · rfl
    · split
      · exact ih trail
      · split
        · exact ih trail.tail
        · split
          · rfl
          · split
            · rfl
            · exact ih _

/-- Where one part of a path leads from the end of a way. -/
inductive Turn (root : Entry) (trail : Trail) : String → Trail → Prop where
  | stay {part : String} (hdir : (trail.target root).isDir) (hpart : isIdlePart part) :
    Turn root trail part trail
  | up (hdir : (trail.target root).isDir) : Turn root trail ".." trail.tail
  | down {part : String} {entries : List (String × Entry)} {listed : Bool} {e : Entry}
    (htarget : trail.target root = .dir entries listed) (hidle : isIdlePart part = false)
    (hparent : part ≠ "..") (hshort : part.utf8ByteSize ≤ nameLimit)
    (hlookup : entries.lookup part = some e) : Turn root trail part ((part, e) :: trail)

theorem Turn.isDir {root : Entry} {trail next : Trail} {part : String}
    (h : Turn root trail part next) : (trail.target root).isDir := by
  cases h with
  | stay hdir hpart => exact hdir
  | up hdir => exact hdir
  | down htarget => rw [htarget]; rfl

theorem Turn.follow_cons {root : Entry} {trail next : Trail} {part : String}
    (h : Turn root trail part next) (rest : List String) :
    follow root trail (part :: rest) = follow root next rest := by
  obtain ⟨entries, listed, hentries⟩ :
      ∃ entries listed, trail.target root = .dir entries listed := by
    have hdir := h.isDir
    cases htarget : trail.target root with
    | file bytes =>
      rw [htarget] at hdir
      cases hdir
    | dir entries listed => exact ⟨entries, listed, rfl⟩
  cases h with
  | stay hdir hpart => simp only [follow, hentries, hpart, if_true]
  | up hdir =>
    have hidle : isIdlePart ".." = false := by decide
    simp only [follow, hentries, hidle, Bool.false_eq_true, if_false, if_true]
  | down htarget hidle hparent hshort hlookup =>
    simp only [follow, htarget, hidle, hparent, Nat.not_lt.mpr hshort, hlookup,
      Bool.false_eq_true, if_false]

/-- A path is followed turn by turn. -/
theorem follow_cons_eq_ok {root : Entry} {trail last : Trail} {part : String} {rest : List String} :
    follow root trail (part :: rest) = .ok last ↔
      ∃ next, Turn root trail part next ∧ follow root next rest = .ok last := by
  refine ⟨fun h => ?_, fun ⟨next, hturn, h⟩ => (hturn.follow_cons rest).trans h⟩
  rw [follow] at h
  split at h
  · cases h
  · rename_i entries listed htarget
    have hdir : (trail.target root).isDir := by rw [htarget]; rfl
    split at h
    · rename_i hpart
      exact ⟨trail, .stay hdir hpart, h⟩
    · rename_i hidle
      split at h
      · rename_i hpart
        subst hpart
        exact ⟨trail.tail, .up hdir, h⟩
      · rename_i hparent
        split at h
        · cases h
        · rename_i hshort
          split at h
          · cases h
          · rename_i e hlookup
            exact ⟨(part, e) :: trail, .down htarget (by simpa using hidle) hparent
              (Nat.not_lt.mp hshort) hlookup, h⟩

/-- A path that leads somewhere is neither empty nor too long, and its pieces are followed from
where it starts. -/
theorem locate_eq_ok {w : Workspace} {path : String} {trail : Trail} :
    w.locate path = .ok trail ↔
      path ≠ "" ∧ path.utf8ByteSize < pathLimit ∧
        ∃ start, w.origin path = .ok start ∧ follow w.root start (pathParts path) = .ok trail := by
  rw [locate]
  split
  · exact ⟨nofun, fun h => absurd ‹path = ""› h.1⟩
  · split
    · exact ⟨nofun, fun h => absurd h.2.1 (Nat.not_lt.mpr ‹_›)⟩
    · refine Iff.trans ?_ (and_iff_right ‹¬path = ""›).symm
      refine Iff.trans ?_ (and_iff_right (Nat.not_le.mp ‹_›)).symm
      cases w.origin path with
      | error e => exact ⟨nofun, nofun⟩
      | ok start => exact ⟨fun h => ⟨start, rfl, h⟩, fun ⟨_, rfl, h⟩ => h⟩

theorem entry_eq_ok {w : Workspace} {path : String} {e : Entry} :
    w.entry path = .ok e ↔ ∃ trail, w.locate path = .ok trail ∧ trail.target w.root = e := by
  rw [entry]
  cases w.locate path with
  | error e => exact ⟨nofun, nofun⟩
  | ok trail => exact ⟨fun h => ⟨trail, rfl, Except.ok.inj h⟩, fun ⟨_, rfl, h⟩ => congrArg _ h⟩

/-- A path starts in a directory, if it leads anywhere. -/
theorem isDir_start {root : Entry} {start trail : Trail} {path : String}
    (h : follow root start (pathParts path) = .ok trail) : (start.target root).isDir := by
  cases hparts : pathParts path with
  | nil => exact absurd (List.map_eq_nil_iff.mp hparts) (List.splitOn_ne_nil _ _)
  | cons part parts =>
    rw [hparts] at h
    obtain ⟨next, hturn, -⟩ := follow_cons_eq_ok.mp h
    exact hturn.isDir

/-- The path of an entry leads where the name leads from the directory. -/
theorem follow_joinPath {root : Entry} {start trail : Trail} {path name : String}
    (h : follow root start (pathParts path) = .ok trail) (hname : '/' ∉ name.toList) :
    follow root start (pathParts (joinPath path name)) = follow root trail [name] := by
  by_cases hopen : path = "" ∨ path.toList.getLast? = some '/'
  · obtain ⟨parts, hparts, hmore⟩ := pathParts_open hopen
    have hjoin : joinPath path name = path ++ name := by
      rw [joinPath, if_pos (by simpa using hopen)]
    -- The empty last piece leads nowhere else, so the pieces before it lead to the directory.
    have hbefore : follow root start parts = .ok trail := by
      rw [hparts, follow_append] at h
      cases hstart : follow root start parts with
      | error e =>
        rw [hstart] at h
        cases h
      | ok middle =>
        rw [hstart] at h
        obtain ⟨next, hturn, -⟩ := follow_cons_eq_ok.mp h
        have hstay : Turn root middle "" middle := .stay hturn.isDir rfl
        exact (hstay.follow_cons []).symm.trans h
    rw [hjoin, hmore name hname, follow_append, hbefore]
    rfl
  · have hjoin : joinPath path name = path ++ "/" ++ name := by
      rw [joinPath, if_neg (by simpa using hopen)]
    rw [hjoin, pathParts_slash, pathParts_name hname, follow_append, h]
    rfl

end Workspace

/-! ## Directory trees of a file system -/

/-- A name that an entry can have. -/
structure IsEntryName (name : String) : Prop where
  notIdle : isIdlePart name = false
  notParent : name ≠ ".."
  noSlash : '/' ∉ name.toList
  noNull : hasNull name = false
  short : name.utf8ByteSize ≤ nameLimit

instance (name : String) : Decidable (IsEntryName name) :=
  decidable_of_iff (isIdlePart name = false ∧ name ≠ ".." ∧ '/' ∉ name.toList ∧
      hasNull name = false ∧ name.utf8ByteSize ≤ nameLimit)
    ⟨fun ⟨h₁, h₂, h₃, h₄, h₅⟩ => ⟨h₁, h₂, h₃, h₄, h₅⟩,
      fun ⟨h₁, h₂, h₃, h₄, h₅⟩ => ⟨h₁, h₂, h₃, h₄, h₅⟩⟩

/-- A directory tree as a file system keeps it: the names in a directory differ, and each is one that
an entry can have. -/
inductive Entry.WellFormed : Entry → Prop where
  | file (bytes : List UInt8) : WellFormed (.file bytes)
  | dir {entries : List (String × Entry)} {listed : Bool} (distinct : (entries.map Prod.fst).Nodup)
    (names : ∀ x ∈ entries, IsEntryName x.1) (below : ∀ x ∈ entries, x.2.WellFormed) :
    WellFormed (.dir entries listed)

theorem lookup_of_mem {α : Type} {entries : List (String × α)}
    (distinct : (entries.map Prod.fst).Nodup) {name : String} {a : α} (h : (name, a) ∈ entries) :
    entries.lookup name = some a := by
  induction entries with
  | nil => cases h
  | cons entry entries ih =>
    obtain ⟨hfirst, hrest⟩ := List.nodup_cons.mp distinct
    rcases List.mem_cons.mp h with rfl | h
    · exact List.lookup_cons_self
    · have hne : name ≠ entry.1 := fun e => hfirst (e ▸ List.mem_map_of_mem h)
      rw [List.lookup_cons, beq_false_of_ne hne]
      exact ih hrest h

theorem mem_of_lookup {α : Type} {entries : List (String × α)} {name : String} {a : α}
    (h : entries.lookup name = some a) : (name, a) ∈ entries := by
  obtain ⟨before, after, rfl, -⟩ := List.lookup_eq_some_iff.mp h
  exact List.mem_append_right before List.mem_cons_self

namespace Workspace

theorem follow_name {root : Entry} {trail : Trail} {entries : List (String × Entry)}
    {listed : Bool} (htarget : trail.target root = .dir entries listed)
    (hwell : (Entry.dir entries listed).WellFormed) {name : String} {e : Entry}
    (h : (name, e) ∈ entries) :
    follow root trail [name] = .ok ((name, e) :: trail) := by
  cases hwell with
  | dir distinct names below =>
    have hname := names _ h
    exact (Turn.down htarget hname.notIdle hname.notParent hname.short
      (lookup_of_mem distinct h)).follow_cons []

theorem wellFormed_target {root : Entry} (hroot : root.WellFormed) {trail : Trail}
    (htrail : ∀ x ∈ trail, x.2.WellFormed) : (trail.target root).WellFormed := by
  cases trail with
  | nil => exact hroot
  | cons x trail => exact htrail x List.mem_cons_self

/-- What stands on a way in a well-formed tree is well-formed. -/
theorem wellFormed_of_follow {root : Entry} (hroot : root.WellFormed) {trail last : Trail}
    (htrail : ∀ x ∈ trail, x.2.WellFormed) {parts : List String}
    (h : follow root trail parts = .ok last) : ∀ x ∈ last, x.2.WellFormed := by
  induction parts generalizing trail with
  | nil =>
    cases h
    exact htrail
  | cons part parts ih =>
    obtain ⟨next, hturn, hnext⟩ := follow_cons_eq_ok.mp h
    refine ih ?_ hnext
    cases hturn with
    | stay => exact htrail
    | up => exact fun x hx => htrail x (List.mem_of_mem_tail hx)
    | down htarget hidle hparent hshort hlookup =>
      refine List.forall_mem_cons.mpr ⟨?_, htrail⟩
      have hwell := wellFormed_target hroot htrail
      rw [htarget] at hwell
      cases hwell with
      | dir distinct names below => exact below _ (mem_of_lookup hlookup)

/-- What a path leads to in a well-formed tree is well-formed. -/
theorem wellFormed_of_entry {w : Workspace} (hw : w.root.WellFormed) {path : String} {e : Entry}
    (h : w.entry path = .ok e) : e.WellFormed := by
  obtain ⟨trail, hlocate, rfl⟩ := entry_eq_ok.mp h
  obtain ⟨-, -, start, horigin, hfollow⟩ := locate_eq_ok.mp hlocate
  have hnil : ∀ x ∈ ([] : Trail), x.2.WellFormed := nofun
  refine wellFormed_target hw (wellFormed_of_follow hw ?_ hfollow)
  rw [origin] at horigin
  split at horigin
  · cases horigin
    exact hnil
  · exact wellFormed_of_follow hw hnil horigin

end Workspace

end CommentTypes
