import CommentTypes.Proofs.Outcome
import CommentTypes.Proofs.Workspace.Follow

/-!
# Files that are written and read

A file that could be written under a path is read under that path with the bytes that were written
(`readBytes_save`). Writing changes the tree at one place: all that stood in it still stands there,
directories as directories and files as files (`Entry.Keeps`). So every path that led somewhere leads
to the same names (`locate_keeps`), which for a new file are those of its directory.
-/

namespace CommentTypes

namespace Entry

theorem get?_append (e : Entry) (xs ys : List String) :
    e.get? (xs ++ ys) = (e.get? xs).bind fun e => e.get? ys := by
  induction xs generalizing e with
  | nil => rfl
  | cons name xs ih =>
    rw [List.cons_append, get?, get?]
    cases e.child? name with
    | none => rfl
    | some below => exact ih below

theorem get?_concat {e : Entry} {names : List String} {entries : List (String × Entry)}
    {listed : Bool} (h : e.get? names = some (.dir entries listed)) (name : String) :
    e.get? (names ++ [name]) = entries.lookup name := by
  rw [get?_append, h]
  show (entries.lookup name).bind some = _
  cases entries.lookup name <;> rfl

/-- All that stands in a tree stands in the other at the same place, as a directory or a file as it
was. -/
def Keeps (old new : Entry) : Prop :=
  ∀ names e, old.get? names = some e → ∃ e', new.get? names = some e' ∧ e'.isDir = e.isDir

/-- A change at one entry of a directory. -/
theorem Keeps.setEntry {entries : List (String × Entry)} {listed : Bool} {name : String}
    {new : Entry} (h : ∀ e, entries.lookup name = some e → Keeps e new) :
    Keeps (.dir entries listed) (.dir (NameMap.setEntry name new entries) listed) := by
  intro names e hget
  cases names with
  | nil =>
    cases hget
    exact ⟨_, rfl, rfl⟩
  | cons first rest =>
    obtain ⟨below, hbelow, hrest⟩ := Option.bind_eq_some_iff.mp hget
    by_cases hfirst : first = name
    · subst hfirst
      obtain ⟨e', hget', hdir⟩ := h below hbelow rest e hrest
      refine ⟨e', ?_, hdir⟩
      rw [get?, child?, NameMap.lookup_setEntry, if_pos rfl]
      exact hget'
    · refine ⟨e, ?_, rfl⟩
      rw [get?, child?, NameMap.lookup_setEntry, if_neg hfirst]
      exact hget

theorem Keeps.of_file (old new : List UInt8) : Keeps (.file old) (.file new) := by
  intro names e hget
  cases names with
  | nil =>
    cases hget
    exact ⟨_, rfl, rfl⟩
  | cons first rest => cases hget

section Put

variable {entries : List (String × Entry)} {listed : Bool} {name : String} {bytes : List UInt8}

/-- A file put into a directory is there. -/
theorem get?_put_file {root : Entry} {names : List String}
    (h : root.get? names = some (.dir entries listed)) :
    (root.put (names ++ [name]) (.file bytes)).get? (names ++ [name]) = some (.file bytes) := by
  induction names generalizing root with
  | nil =>
    cases h
    rw [List.nil_append, put, get?, child?, NameMap.lookup_setEntry, if_pos rfl]
    rfl
  | cons first rest ih =>
    obtain ⟨below, hbelow, hrest⟩ := Option.bind_eq_some_iff.mp h
    cases root with
    | file bytes => cases hbelow
    | dir entries =>
      rw [List.cons_append, put, get?, child?, NameMap.lookup_setEntry, if_pos rfl, Option.bind_some]
      rw [child?] at hbelow
      rw [hbelow, Option.getD_some]
      exact ih hrest

/-- All else stays, if the name was free or stood for a file. -/
theorem keeps_put_file {root : Entry} {names : List String}
    (h : root.get? names = some (.dir entries listed))
    (hplace : ∀ e, entries.lookup name = some e → e.isDir = false) :
    Keeps root (root.put (names ++ [name]) (.file bytes)) := by
  induction names generalizing root with
  | nil =>
    cases h
    refine Keeps.setEntry fun e he => ?_
    cases e with
    | file old => exact .of_file old bytes
    | dir inner => cases hplace _ he
  | cons first rest ih =>
    obtain ⟨below, hbelow, hrest⟩ := Option.bind_eq_some_iff.mp h
    cases root with
    | file bytes => cases hbelow
    | dir entries =>
      refine Keeps.setEntry fun e he => ?_
      rw [child?, he] at hbelow
      cases hbelow
      rw [he, Option.getD_some]
      exact ih hrest

end Put

end Entry

namespace Workspace

/-! ## Ways in a tree that was changed -/

/-- What stands on a way stands in the tree under the names up to it. -/
def Trail.Sound (root : Entry) : Trail → Prop
  | [] => True
  | (name, e) :: trail => (Trail.target root trail).child? name = some e ∧ Sound root trail

theorem Trail.sound_nil (root : Entry) : Trail.Sound root [] := trivial

theorem Trail.names_cons (x : String × Entry) (trail : Trail) :
    Trail.names (x :: trail) = trail.names ++ [x.1] := by
  rw [names, List.reverse_cons, List.map_append]
  rfl

theorem Trail.Sound.get?_names {root : Entry} {trail : Trail} (h : trail.Sound root) :
    root.get? trail.names = some (trail.target root) := by
  induction trail with
  | nil => rfl
  | cons x trail ih =>
    rw [names_cons, Entry.get?_append, ih h.2, Option.bind_some, Entry.get?, h.1]
    rfl

theorem Trail.Sound.tail {root : Entry} {trail : Trail} (h : trail.Sound root) :
    Trail.Sound root trail.tail := by
  cases trail with
  | nil => trivial
  | cons x trail => exact h.2

theorem Trail.names_tail (trail : Trail) : Trail.names trail.tail = trail.names.dropLast := by
  cases trail with
  | nil => rfl
  | cons x trail => rw [names_cons, List.dropLast_concat, List.tail_cons]

theorem Turn.sound {root : Entry} {trail next : Trail} {part : String}
    (h : Turn root trail part next) (hsound : trail.Sound root) : next.Sound root := by
  cases h with
  | stay => exact hsound
  | up => exact hsound.tail
  | down htarget hidle hparent hshort hlookup =>
    refine ⟨?_, hsound⟩
    rw [htarget]
    exact hlookup

theorem sound_of_follow {root : Entry} {trail last : Trail} (hsound : trail.Sound root)
    {parts : List String} (h : follow root trail parts = .ok last) : last.Sound root := by
  induction parts generalizing trail with
  | nil =>
    cases h
    exact hsound
  | cons part parts ih =>
    obtain ⟨next, hturn, hnext⟩ := follow_cons_eq_ok.mp h
    exact ih (hturn.sound hsound) hnext

section Keeps

variable {old new : Entry} (hkeeps : old.Keeps new) {trail trail' : Trail}
  (hsound : trail.Sound old) (hsound' : trail'.Sound new) (hnames : trail'.names = trail.names)
include hkeeps hsound hsound' hnames

theorem isDir_target_keeps : (trail'.target new).isDir = (trail.target old).isDir := by
  obtain ⟨e, he, hdir⟩ := hkeeps _ _ hsound.get?_names
  rw [← hnames, hsound'.get?_names] at he
  cases he
  exact hdir

theorem Turn.keeps {part : String} {next : Trail} (h : Turn old trail part next) :
    ∃ next', Turn new trail' part next' ∧ next'.names = next.names := by
  have hdir' := isDir_target_keeps hkeeps hsound hsound' hnames
  have hdir := h.isDir
  rw [← hdir'] at hdir
  cases h with
  | stay _ hpart => exact ⟨trail', .stay hdir hpart, hnames⟩
  | up => exact ⟨List.tail trail', .up hdir, by rw [Trail.names_tail, Trail.names_tail, hnames]⟩
  | down htarget hidle hparent hshort hlookup =>
    cases htarget' : trail'.target new with
    | file bytes =>
      rw [htarget'] at hdir
      cases hdir
    | dir entries' =>
      have hplace := Entry.get?_concat (htarget ▸ hsound.get?_names) part
      have hplace' := Entry.get?_concat (htarget' ▸ hsound'.get?_names) part
      obtain ⟨e', he', -⟩ := hkeeps _ _ (hplace.trans hlookup)
      rw [← hnames, hplace'] at he'
      refine ⟨(part, e') :: trail', .down htarget' hidle hparent hshort he', ?_⟩
      rw [Trail.names_cons, Trail.names_cons, hnames]

/-- A way that led to some names leads to the same names. -/
theorem follow_keeps {parts : List String} {last : Trail} (h : follow old trail parts = .ok last) :
    ∃ last', follow new trail' parts = .ok last' ∧ last'.names = last.names := by
  induction parts generalizing trail trail' with
  | nil =>
    cases h
    exact ⟨trail', rfl, hnames⟩
  | cons part parts ih =>
    obtain ⟨next, hturn, hnext⟩ := follow_cons_eq_ok.mp h
    obtain ⟨next', hturn', hnames'⟩ := hturn.keeps hkeeps hsound hsound' hnames
    obtain ⟨last', hlast, heq⟩ := ih (hturn.sound hsound) (hturn'.sound hsound') hnames' hnext
    exact ⟨last', follow_cons_eq_ok.mpr ⟨next', hturn', hlast⟩, heq⟩

end Keeps

end Workspace

/-! ## Paths in normal form -/

/-- The anchor is none, one slash or two, and no part is idle or has a slash. -/
structure Path.Normal (p : Path) : Prop where
  anchored : p.anchor ∈ ["", "/", "//"]
  parts : ∀ part ∈ p.parts, isIdlePart part = false ∧ '/' ∉ part.toList

theorem Path.normal_ofString (path : String) : (Path.ofString path).Normal := by
  refine ⟨?_, fun part hpart => ?_⟩
  · show Path.anchorOf path.toList ∈ ["", "/", "//"]
    unfold Path.anchorOf
    split <;> simp
  · obtain ⟨hmem, hidle⟩ := List.mem_filter.mp hpart
    obtain ⟨cs, hcs, rfl⟩ := List.mem_map.mp hmem
    refine ⟨by simpa using hidle, ?_⟩
    rw [String.toList_ofList]
    exact not_mem_of_mem_splitOn hcs

namespace Path.Normal

variable {p : Path} (hp : p.Normal)
include hp

theorem parent : p.parent.Normal :=
  ⟨hp.anchored, fun part hpart => hp.parts part (List.dropLast_subset _ hpart)⟩

theorem pathParts_join (hne : p.parts ≠ []) : pathParts (Text.joinWith "/" p.parts) = p.parts := by
  have hid : String.ofList ∘ String.toList = id := by
    funext s
    exact String.ofList_toList
  have hsplit : (Text.joinWith "/" p.parts).toList.splitOn '/' = p.parts.map String.toList := by
    rw [Text.joinWith, String.toList_ofList]
    refine List.splitOn_intercalate '/' (fun cs hcs => ?_) (by simpa using hne)
    obtain ⟨part, hpart, rfl⟩ := List.mem_map.mp hcs
    exact (hp.parts part hpart).2
  rw [pathParts, hsplit, List.map_map, hid, List.map_id]

/-- The pieces of the text of a path are its parts, after pieces that lead nowhere else. -/
theorem pathParts_render :
    ∃ idle, (∀ part ∈ idle, isIdlePart part) ∧ pathParts p.render = idle ++ p.parts := by
  obtain ⟨anchor, parts⟩ := p
  by_cases hne : parts = []
  · subst hne
    refine ⟨pathParts (Path.render { anchor }), ?_, (List.append_nil _).symm⟩
    have hanchor := hp.anchored
    simp only [List.mem_cons, List.not_mem_nil, or_false] at hanchor
    rcases hanchor with rfl | rfl | rfl <;> decide
  · have hrender : Path.render { anchor, parts } = anchor ++ Text.joinWith "/" parts :=
      if_neg fun h => hne h.2
    have hjoin := hp.pathParts_join hne
    have hanchor := hp.anchored
    simp only [List.mem_cons, List.not_mem_nil, or_false] at hanchor hjoin
    rcases hanchor with rfl | rfl | rfl
    · exact ⟨[], by simp, by rw [hrender, String.empty_append, hjoin, List.nil_append]⟩
    · refine ⟨[""], by decide, ?_⟩
      have hslash := pathParts_slash "" (Text.joinWith "/" parts)
      rwa [String.empty_append, ← hrender, hjoin] at hslash
    · refine ⟨["", ""], by decide, ?_⟩
      have hslash := pathParts_slash "/" (Text.joinWith "/" parts)
      rwa [hjoin, show "/" ++ "/" = "//" from rfl, ← hrender] at hslash

/-- The text of a path starts with a slash if the path has an anchor. -/
theorem head?_render : p.render.toList.head? = some '/' ↔ p.anchor ≠ "" := by
  obtain ⟨anchor, parts⟩ := p
  have hanchor := hp.anchored
  simp only [List.mem_cons, List.not_mem_nil, or_false] at hanchor
  cases parts with
  | nil => rcases hanchor with rfl | rfl | rfl <;> decide
  | cons first rest =>
    have hrender : Path.render { anchor, parts := first :: rest } =
        anchor ++ Text.joinWith "/" (first :: rest) := if_neg fun h => nomatch h.2
    rw [hrender, String.toList_append]
    rcases hanchor with rfl | rfl | rfl
    · obtain ⟨hidle, hslash⟩ := hp.parts first List.mem_cons_self
      refine ⟨fun h => absurd ?_ hslash, fun h => absurd rfl h⟩
      cases hchars : first.toList with
      | nil =>
        rw [String.toList_eq_nil_iff.mp hchars] at hidle
        cases hidle
      | cons c cs =>
        have hhead : (Text.joinWith "/" (first :: rest)).toList.head? = some c := by
          rw [Text.joinWith, String.toList_ofList, List.map_cons, hchars]
          cases rest with
          | nil => rw [List.map_nil, List.intercalate_singleton, List.head?_cons]
          | cons second rest =>
            rw [List.map_cons, List.intercalate_cons_cons, List.cons_append, List.cons_append,
              List.head?_cons]
        rw [String.toList_empty, List.nil_append, hhead] at h
        rw [Option.some.inj h]
        exact List.mem_cons_self
    · simp
    · simp

end Path.Normal

namespace Workspace

theorem follow_idle {root : Entry} {trail : Trail} (hdir : (trail.target root).isDir)
    {idle : List String} (hidle : ∀ part ∈ idle, isIdlePart part) (rest : List String) :
    follow root trail (idle ++ rest) = follow root trail rest := by
  induction idle with
  | nil => rfl
  | cons part idle ih =>
    obtain ⟨hpart, hidle⟩ := List.forall_mem_cons.mp hidle
    exact ((Turn.stay hdir hpart).follow_cons _).trans (ih hidle)

theorem follow_render {p : Path} (hp : p.Normal) {root : Entry} {trail : Trail}
    (hdir : (trail.target root).isDir) :
    follow root trail (pathParts p.render) = follow root trail p.parts := by
  obtain ⟨idle, hidle, hparts⟩ := hp.pathParts_render
  rw [hparts, follow_idle hdir hidle]

theorem origin_parent (w : Workspace) {p : Path} (hp : p.Normal) :
    w.origin p.parent.render = w.origin p.render := by
  have hhead : p.parent.render.toList.head? = some '/' ↔ p.render.toList.head? = some '/' :=
    hp.parent.head?_render.trans hp.head?_render.symm
  rw [origin, origin]
  by_cases h : p.render.toList.head? = some '/'
  · rw [if_pos h, if_pos (hhead.mpr h)]
  · rw [if_neg h, if_neg (mt hhead.mp h)]

/-- The last part of a path is followed from where its directory is. -/
theorem locate_last {w : Workspace} {p : Path} (hp : p.Normal) {name : String}
    (hlast : p.parts.getLast? = some name) {trail : Trail}
    (hparent : w.locate p.parent.render = .ok trail) (hshort : p.render.utf8ByteSize < pathLimit) :
    w.locate p.render = follow w.root trail [name] := by
  obtain ⟨-, -, start, horigin, hfollow⟩ := locate_eq_ok.mp hparent
  have hdir := isDir_start hfollow
  obtain ⟨before, hparts⟩ := List.getLast?_eq_some_iff.mp hlast
  have hbefore : p.parent.parts = before := by
    show p.parts.dropLast = before
    rw [hparts, List.dropLast_concat]
  have hne : p.render ≠ "" := by
    intro h
    obtain ⟨idle, -, hpieces⟩ := hp.pathParts_render
    have hend : pathParts "" = [""] := rfl
    rw [h, hend, hparts, ← List.append_assoc] at hpieces
    have hname : name = "" := by
      have := congrArg List.getLast? hpieces
      rw [List.getLast?_concat] at this
      exact (Option.some.inj this).symm
    have hidle := (hp.parts name (List.mem_of_getLast? hlast)).1
    rw [hname] at hidle
    cases hidle
  rw [follow_render hp.parent hdir, hbefore] at hfollow
  rw [locate, if_neg hne, if_neg (Nat.not_le.mpr hshort), ← origin_parent w hp, horigin]
  show follow w.root start (pathParts p.render) = _
  rw [follow_render hp hdir, hparts, follow_append, hfollow]
  rfl

/-! ## Writing -/

theorem sound_of_origin {w : Workspace} {path : String} {start : Trail}
    (h : w.origin path = .ok start) : start.Sound w.root := by
  rw [origin] at h
  split at h
  · cases h
    exact Trail.sound_nil _
  · exact sound_of_follow (Trail.sound_nil _) h

theorem sound_of_locate {w : Workspace} {path : String} {trail : Trail}
    (h : w.locate path = .ok trail) : trail.Sound w.root := by
  obtain ⟨-, -, start, horigin, hfollow⟩ := locate_eq_ok.mp h
  exact sound_of_follow (sound_of_origin horigin) hfollow

theorem origin_keeps {w : Workspace} {new : Entry} (hkeeps : w.root.Keeps new) {path : String}
    {start : Trail} (h : w.origin path = .ok start) :
    ∃ start', Workspace.origin { w with root := new } path = .ok start' ∧
      start'.names = start.names := by
  rw [origin] at h ⊢
  split at h
  · cases h
    exact ⟨[], if_pos ‹_›, rfl⟩
  · obtain ⟨start', hstart', hnames⟩ :=
      follow_keeps hkeeps (Trail.sound_nil _) (Trail.sound_nil _) rfl h
    exact ⟨start', (if_neg ‹_›).trans hstart', hnames⟩

/-- A path that led to some names leads to the same names. -/
theorem locate_keeps {w : Workspace} {new : Entry} (hkeeps : w.root.Keeps new) {path : String}
    {trail : Trail} (h : w.locate path = .ok trail) :
    ∃ trail', Workspace.locate { w with root := new } path = .ok trail' ∧
      trail'.names = trail.names := by
  obtain ⟨hne, hshort, start, horigin, hfollow⟩ := locate_eq_ok.mp h
  obtain ⟨start', horigin', hnames⟩ := origin_keeps hkeeps horigin
  obtain ⟨trail', hfollow', hnames'⟩ := follow_keeps hkeeps (sound_of_origin horigin)
    (sound_of_origin horigin') hnames hfollow
  exact ⟨trail', locate_eq_ok.mpr ⟨hne, hshort, start', horigin', hfollow'⟩, hnames'⟩

/-- In a tree that is a file no way leads anywhere. -/
theorem Trail.Sound.eq_nil {bytes : List UInt8} {trail : Trail} (h : trail.Sound (.file bytes)) :
    trail = [] := by
  induction trail with
  | nil => rfl
  | cons x trail ih =>
    have hchild := h.1
    rw [ih h.2] at hchild
    cases hchild

/-- A file that a path leads to is an entry of a directory. -/
theorem exists_place {w : Workspace} {path : String} {trail : Trail} {bytes : List UInt8}
    (h : w.locate path = .ok trail) (htarget : trail.target w.root = .file bytes) :
    ∃ name above entries listed, trail.names = Trail.names above ++ [name] ∧ above.Sound w.root ∧
      above.target w.root = .dir entries listed ∧ entries.lookup name = some (.file bytes) := by
  obtain ⟨-, -, start, horigin, hfollow⟩ := locate_eq_ok.mp h
  have hsound := sound_of_locate h
  cases trail with
  | nil =>
    have hroot : w.root = .file bytes := htarget
    have hdir := isDir_start hfollow
    have hstart := sound_of_origin horigin
    rw [hroot] at hstart hdir
    rw [hstart.eq_nil] at hdir
    cases hdir
  | cons x above =>
    obtain ⟨name, e⟩ := x
    have he : e = .file bytes := htarget
    subst he
    cases habove : Trail.target w.root above with
    | file old =>
      have hchild := hsound.1
      rw [habove] at hchild
      cases hchild
    | dir entries listed =>
      have hchild := hsound.1
      rw [habove] at hchild
      exact ⟨name, above, entries, listed, Trail.names_cons .., hsound.2, habove, hchild⟩

theorem short_of_notFound {w : Workspace} {path : String} (h : w.entry path = .error .notFound) :
    path.utf8ByteSize < pathLimit := by
  by_cases hempty : path = ""
  · subst hempty
    decide
  · refine Nat.not_le.mp fun hlong => ?_
    rw [entry, locate, if_neg hempty, if_pos hlong] at h
    cases h

theorem follow_name_notFound {root : Entry} {trail : Trail} {name : String}
    (hidle : isIdlePart name = false) (hparent : name ≠ "..")
    (h : follow root trail [name] = .error .notFound) :
    ∃ entries listed, trail.target root = .dir entries listed ∧ name.utf8ByteSize ≤ nameLimit ∧
      entries.lookup name = none := by
  rw [follow] at h
  split at h
  · cases h
  · rename_i entries listed htarget
    rw [if_neg (by simpa using hidle), if_neg hparent] at h
    split at h
    · cases h
    · rename_i hshort
      split at h
      · rename_i hlookup
        exact ⟨entries, listed, htarget, Nat.not_lt.mp hshort, hlookup⟩
      · cases h

/-- The place of a new file is a free name in a directory. -/
theorem exists_free_place {w : Workspace} {p : Path} (hp : p.Normal) {names : List String}
    (h : w.freePlace p = .ok names) :
    ∃ name above entries listed, names = Trail.names above ++ [name] ∧
      p.parts.getLast? = some name ∧ w.locate p.parent.render = .ok above ∧
      p.render.utf8ByteSize < pathLimit ∧ above.target w.root = .dir entries listed ∧
      entries.lookup name = none ∧
      isIdlePart name = false ∧ name ≠ ".." ∧ name.utf8ByteSize ≤ nameLimit := by
  rw [freePlace] at h
  split at h
  · cases h
  · rename_i name hentry hlast
    split at h
    · cases h
    · rename_i hparent
      cases hlocate : w.locate p.parent.render with
      | error e =>
        rw [hlocate] at h
        cases h
      | ok above =>
        rw [hlocate] at h
        cases h
        have hshort := short_of_notFound hentry
        have hnone : follow w.root above [name] = .error .notFound := by
          rw [← locate_last hp hlast hlocate hshort]
          rw [entry] at hentry
          cases hfound : w.locate p.render with
          | error e =>
            rw [hfound] at hentry
            exact congrArg _ (Except.error.inj hentry)
          | ok trail =>
            rw [hfound] at hentry
            cases hentry
        have hidle := (hp.parts name (List.mem_of_getLast? hlast)).1
        obtain ⟨entries, listed, htarget, hlimit, hlookup⟩ :=
          follow_name_notFound hidle hparent hnone
        exact ⟨name, above, entries, listed, rfl, hlast, rfl, hshort, htarget, hlookup, hidle, hparent,
          hlimit⟩
  · cases h

/-- A file written in place of another. -/
theorem entry_replaced {w : Workspace} {path : String} {trail : Trail} {old : List UInt8}
    (hlocate : w.locate path = .ok trail) (htarget : trail.target w.root = .file old)
    (bytes : List UInt8) :
    Workspace.entry { w with root := w.root.put trail.names (.file bytes) } path =
      .ok (.file bytes) := by
  obtain ⟨name, above, entries, listed, hnames, hsound, habove, hlookup⟩ :=
    exists_place hlocate htarget
  have hplace := habove ▸ hsound.get?_names
  have hkeeps : w.root.Keeps (w.root.put (above.names ++ [name]) (.file bytes)) :=
    Entry.keeps_put_file hplace fun e he => by
      rw [hlookup] at he
      cases he
      rfl
  rw [hnames]
  obtain ⟨trail', hlocate', hnames'⟩ := locate_keeps hkeeps hlocate
  have hget := (sound_of_locate hlocate').get?_names
  rw [hnames', hnames] at hget
  exact entry_eq_ok.mpr
    ⟨trail', hlocate', Option.some.inj (hget.symm.trans (Entry.get?_put_file hplace))⟩

/-- A file written at a free place. -/
theorem entry_putNew {w new : Workspace} {p : Path} (hp : p.Normal) {bytes : List UInt8}
    (h : w.putNew p (.file bytes) = .ok new) : new.entry p.render = .ok (.file bytes) := by
  rw [putNew] at h
  cases hfree : w.freePlace p with
  | error e =>
    rw [hfree] at h
    cases h
  | ok names =>
    rw [hfree] at h
    cases h
    obtain ⟨name, above, entries, listed, rfl, hlast, hparent, hshort, habove, hlookup, hidle, hname,
      hlimit⟩ := exists_free_place hp hfree
    have hsound := sound_of_locate hparent
    have hplace := habove ▸ hsound.get?_names
    have hkeeps : w.root.Keeps (w.root.put (above.names ++ [name]) (.file bytes)) :=
      Entry.keeps_put_file hplace fun e he => by
        rw [hlookup] at he
        cases he
    obtain ⟨above', hparent', hnames⟩ := locate_keeps hkeeps hparent
    have hsound' := sound_of_locate hparent'
    have hdir := isDir_target_keeps hkeeps hsound hsound' hnames
    rw [habove] at hdir
    cases habove' : above'.target (w.root.put (above.names ++ [name]) (.file bytes)) with
    | file old =>
      rw [habove'] at hdir
      cases hdir
    | dir entries' =>
      have hfound := Entry.get?_concat (habove' ▸ hsound'.get?_names) name
      rw [hnames, Entry.get?_put_file hplace] at hfound
      have hturn := Turn.down habove' hidle hname hlimit hfound.symm
      exact entry_eq_ok.mpr
        ⟨_, (locate_last hp hlast hparent' hshort).trans (hturn.follow_cons []), rfl⟩

/-- What was written under a path is what the path leads to. -/
theorem entry_write {w written : Workspace} {p : Path} (hp : p.Normal) {bytes : List UInt8}
    (h : w.write p bytes = .ok written) : written.entry p.render = .ok (.file bytes) := by
  rw [write] at h
  split at h
  · cases h
  · rename_i old hentry
    obtain ⟨trail, hlocate, htarget⟩ := entry_eq_ok.mp hentry
    rw [hlocate] at h
    cases h
    exact entry_replaced hlocate htarget bytes
  · exact entry_putNew hp h

/-- A file that could be saved is read with the bytes that were saved. -/
theorem readBytes_save {w saved : Workspace} {p : Path} (hp : p.Normal) {bytes : List UInt8}
    (h : w.save p bytes = (saved, none)) :
    p.hasNull = false ∧ saved.readBytes p = .ok bytes := by
  rw [save] at h
  split at h
  · cases h
  · split at h
    · cases h
    · rename_i hnull
      split at h
      · rename_i written hwrite
        cases h
        refine ⟨by simpa using hnull, ?_⟩
        rw [readBytes, entry_write hp hwrite]
      · cases h

/-! ## Limits that stay -/

theorem limits_putNew {w new : Workspace} {p : Path} {e : Entry} (h : w.putNew p e = .ok new) :
    new.limits = w.limits := by
  obtain ⟨names, -, hnew⟩ := bind_eq_ok_iff.mp h
  cases hnew
  rfl

theorem limits_makeDirsAt (anchor : String) (w : Workspace) (limit : Limit) (parts : List String) :
    (makeDirsAt anchor w limit parts).1.limits = w.limits := by
  induction parts generalizing limit with
  | nil => rfl
  | cons part above ih =>
    rw [makeDirsAt]
    split
    · exact limits_putNew ‹_›
    · split
      · rfl
      · have habove := ih limit.inside
        split
        · rename_i hmade
          rwa [hmade] at habove
        · rename_i hmade
          rw [hmade] at habove
          split
          · exact (limits_putNew ‹_›).trans habove
          · exact habove
    · rfl

theorem limits_prepare (w : Workspace) (p : Path) : (w.prepare p).1.limits = w.limits := by
  rw [prepare]
  split
  · rfl
  · split
    · rfl
    · exact limits_makeDirsAt ..

theorem limits_write {w written : Workspace} {p : Path} {bytes : List UInt8}
    (h : w.write p bytes = .ok written) : written.limits = w.limits := by
  rw [write] at h
  split at h
  · cases h
  · obtain ⟨trail, -, hwritten⟩ := bind_eq_ok_iff.mp h
    cases hwritten
    rfl
  · exact limits_putNew h

/-- The system on which a file was saved allows what it allowed before. -/
theorem limits_save {w saved : Workspace} {p : Path} {bytes : List UInt8}
    (h : w.save p bytes = (saved, none)) : saved.limits = w.limits := by
  have hprepare := w.limits_prepare p
  rw [save] at h
  split at h
  · cases h
  · rename_i prepared hprepared
    rw [hprepared] at hprepare
    split at h
    · cases h
    · split at h
      · rename_i written hwrite
        cases h
        exact (limits_write hwrite).trans hprepare
      · cases h

/-! ## Texts -/

/-- The text of a file is that of its bytes. -/
theorem readText_eq {w : Workspace} {p : Path} (h : p.hasNull = false) :
    w.readText p = match w.readBytes p with
      | .error e => .error (.refused e)
      | .ok bytes => match Text.Utf8.decodeStrict bytes with
        | .error e => .error (.undecodable e)
        | .ok cs => .ok (String.ofList (Text.unifyNewlines cs)) := by
  rw [readText, h]
  cases w.readBytes p with
  | error e => rfl
  | ok bytes =>
    show ((Text.Utf8.decodeStrict bytes).mapError TextError.undecodable).bind _ =
      match Text.Utf8.decodeStrict bytes with | .error e => _ | .ok cs => _
    cases Text.Utf8.decodeStrict bytes <;> rfl

end Workspace

end CommentTypes
