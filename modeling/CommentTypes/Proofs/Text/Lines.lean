import CommentTypes.Proofs.Text.Utf8
import CommentTypes.Source.Basic

/-!
# Lines of characters and lines of bytes

A text is made of lines with a line feed after each, and of a last line without one
(`exists_closed`). Its bytes are made in the same way of the bytes of the lines (`encode_closed`),
so the two ways to take it apart agree (`byteLines_eq`).

Lines that follow one another, put together again, are a part of the text (`unlines_isInfix`).
-/

namespace CommentTypes

section Pieces

variable {α : Type} {a : α}

/-- Pieces put together, with a separator after each. -/
def closed (a : α) : List (List α) → List α
  | [] => []
  | l :: ls => l ++ a :: closed a ls

theorem closed_append (ls ks : List (List α)) :
    closed a (ls ++ ks) = closed a ls ++ closed a ks := by
  induction ls with
  | nil => rfl
  | cons l ls ih => simp [closed, ih]

theorem length_closed (ls : List (List α)) :
    (closed a ls).length = total (fun l => l.length + 1) ls := by
  induction ls with
  | nil => rfl
  | cons l ls ih =>
    rw [closed, total_cons, ← ih, List.length_append, List.length_cons]
    omega

theorem mem_of_mem_intercalate {sep : List α} {ls : List (List α)} (h : a ∈ sep.intercalate ls) :
    a ∈ sep ∨ ∃ l ∈ ls, a ∈ l := by
  induction ls with
  | nil => cases h
  | cons l ls ih =>
    cases ls with
    | nil =>
      rw [List.intercalate_singleton] at h
      exact .inr ⟨l, List.mem_cons_self, h⟩
    | cons k ls =>
      rw [List.intercalate_cons_cons, List.mem_append, List.mem_append] at h
      rcases h with (h | h) | h
      · exact .inr ⟨l, List.mem_cons_self, h⟩
      · exact .inl h
      · exact (ih h).imp_right fun ⟨m, hm, hmem⟩ => ⟨m, List.mem_cons_of_mem l hm, hmem⟩

theorem mem_intercalate_of_mem {sep l : List α} {ls : List (List α)} (hl : l ∈ ls) (h : a ∈ l) :
    a ∈ sep.intercalate ls := by
  induction ls with
  | nil => cases hl
  | cons k ls ih =>
    cases ls with
    | nil =>
      rw [List.intercalate_singleton]
      exact List.mem_singleton.mp hl ▸ h
    | cons m ls =>
      rw [List.intercalate_cons_cons, List.mem_append, List.mem_append]
      rcases List.mem_cons.mp hl with rfl | hl
      · exact .inl (.inl h)
      · exact .inr (ih hl)

variable [DecidableEq α]

/-- Every list is made of pieces with a separator after each, and of a last piece without one. -/
theorem exists_closed (a : α) (xs : List α) :
    ∃ (ls : List (List α)) (last : List α),
      xs = closed a ls ++ last ∧ (∀ l ∈ ls, a ∉ l) ∧ a ∉ last := by
  induction xs with
  | nil => exact ⟨[], [], rfl, by simp, by simp⟩
  | cons x xs ih =>
    obtain ⟨ls, last, rfl, hls, hlast⟩ := ih
    by_cases hx : x = a
    · subst hx
      exact ⟨[] :: ls, last, rfl, by simpa using hls, hlast⟩
    · cases ls with
      | nil => exact ⟨[], x :: last, rfl, by simp, by simp [Ne.symm hx, hlast]⟩
      | cons l ls => exact ⟨(x :: l) :: ls, last, rfl, by simpa [Ne.symm hx] using hls, hlast⟩

theorem count_closed {ls : List (List α)} (h : ∀ l ∈ ls, a ∉ l) :
    (closed a ls).count a = ls.length := by
  induction ls with
  | nil => rfl
  | cons l ls ih =>
    obtain ⟨hl, hls⟩ := List.forall_mem_cons.mp h
    rw [closed, List.count_append, List.count_cons_self, List.count_eq_zero.mpr hl, ih hls,
      List.length_cons, Nat.zero_add]

theorem splitOn_closed_append {ls : List (List α)} (h : ∀ l ∈ ls, a ∉ l) (ys : List α) :
    (closed a ls ++ ys).splitOn a = ls ++ ys.splitOn a := by
  induction ls with
  | nil => rfl
  | cons l ls ih =>
    obtain ⟨hl, hls⟩ := List.forall_mem_cons.mp h
    rw [closed, List.append_assoc, List.cons_append, List.splitOn_append_cons_self_of_not_mem hl,
      ih hls, List.cons_append]

theorem not_mem_of_mem_splitOn {xs l : List α} (h : l ∈ xs.splitOn a) : a ∉ l := by
  obtain ⟨ls, last, rfl, hls, hlast⟩ := exists_closed a xs
  rw [splitOn_closed_append hls, List.splitOn_eq_singleton hlast] at h
  rcases List.mem_append.mp h with hl | hl
  · exact hls l hl
  · rwa [List.mem_singleton.mp hl]

/-- All but the separators stands in the pieces. -/
theorem mem_iff_mem_splitOn {xs : List α} {b : α} (h : b ≠ a) :
    b ∈ xs ↔ ∃ l ∈ xs.splitOn a, b ∈ l := by
  have hjoin : [a].intercalate (xs.splitOn a) = xs := List.intercalate_splitOn a
  constructor
  · intro hb
    rw [← hjoin] at hb
    exact (mem_of_mem_intercalate hb).resolve_left fun hb => h (List.mem_singleton.mp hb)
  · rintro ⟨l, hl, hb⟩
    rw [← hjoin]
    exact mem_intercalate_of_mem hl hb

theorem splitOn_append_of_not_mem {xs : List α} (h : a ∉ xs) (ys : List α) :
    (xs ++ ys).splitOn a = (ys.splitOn a).modifyHead (xs ++ ·) := by
  obtain ⟨l, ls, hl⟩ := List.exists_cons_of_ne_nil (List.splitOn_ne_nil a ys)
  induction xs with
  | nil => rw [hl, List.nil_append, hl, List.modifyHead_cons, List.nil_append]
  | cons x xs ih =>
    have hx : (x == a) = false := beq_false_of_ne fun e => h (e ▸ List.mem_cons_self)
    rw [List.cons_append, List.splitOn_cons_eq_if_modifyHead, hx,
      ih (mt (List.mem_cons_of_mem x) h), hl]
    rfl

/-- The pieces before a separator and those after it. -/
theorem splitOn_append_cons (a : α) (xs ys : List α) :
    (xs ++ a :: ys).splitOn a = xs.splitOn a ++ ys.splitOn a := by
  obtain ⟨ls, last, rfl, hls, hlast⟩ := exists_closed a xs
  rw [splitOn_closed_append hls, List.splitOn_eq_singleton hlast, List.append_assoc,
    splitOn_closed_append hls, List.splitOn_append_cons_self_of_not_mem hlast, List.append_assoc,
    List.singleton_append]

theorem length_splitOn (a : α) (xs : List α) : (xs.splitOn a).length = xs.count a + 1 := by
  obtain ⟨ls, last, rfl, hls, hlast⟩ := exists_closed a xs
  rw [splitOn_closed_append hls, List.splitOn_eq_singleton hlast, List.count_append,
    count_closed hls, List.count_eq_zero.mpr hlast, List.length_append, List.length_singleton]

/-- What stands after the last separator of some pieces. -/
theorem takeWhile_reverse_closed (ls : List (List α)) {last : List α} (h : a ∉ last) :
    (closed a ls ++ last).reverse.takeWhile (· != a) = last.reverse := by
  have hlast : ∀ x ∈ last.reverse, (x != a) = true := fun x hx =>
    bne_iff_ne.mpr fun e => h (e ▸ List.mem_reverse.mp hx)
  rw [List.reverse_append, List.takeWhile_append_of_pos hlast]
  rcases List.eq_nil_or_concat ls with rfl | ⟨ls, l, rfl⟩
  · exact List.append_nil _
  · simp [closed_append, closed]

end Pieces

open Text.Utf8

theorem encode_closed (ls : List (List Char)) :
    encode (closed '\n' ls) = closed 0x0a (ls.map encode) := by
  induction ls with
  | nil => rfl
  | cons l ls ih =>
    have hfeed : String.utf8EncodeChar '\n' = [0x0a] := by decide
    rw [closed, List.map_cons, closed, encode_append, encode_cons, hfeed, ih, List.singleton_append]

theorem forall_lineFeed_not_mem_encode {ls : List (List Char)} (h : ∀ l ∈ ls, '\n' ∉ l) :
    ∀ bytes ∈ ls.map encode, (0x0a : UInt8) ∉ bytes := by
  intro bytes hb
  obtain ⟨l, hl, rfl⟩ := List.mem_map.mp hb
  exact mt lineFeed_mem_encode.mp (h l hl)

/-- The lines of the bytes of a text are the bytes of its lines. -/
theorem byteLines_eq (text : String) :
    byteLines text = (Text.lines text).map fun l => encode l.toList := by
  have hid : (fun l : String => encode l.toList) ∘ String.ofList = encode := by
    funext cs
    rw [Function.comp_apply, String.toList_ofList]
  obtain ⟨ls, last, htext, hls, hlast⟩ := exists_closed '\n' text.toList
  rw [byteLines, Text.lines, List.map_map, hid, htext, encode_append, encode_closed,
    splitOn_closed_append (forall_lineFeed_not_mem_encode hls), splitOn_closed_append hls,
    List.splitOn_eq_singleton hlast, List.splitOn_eq_singleton (mt lineFeed_mem_encode.mp hlast),
    List.map_append, List.map_singleton]

theorem count_encode (cs : List Char) : (encode cs).count 0x0a = cs.count '\n' := by
  obtain ⟨ls, last, rfl, hls, hlast⟩ := exists_closed '\n' cs
  rw [encode_append, encode_closed, List.count_append, List.count_append, count_closed hls,
    count_closed (forall_lineFeed_not_mem_encode hls), List.length_map,
    List.count_eq_zero.mpr hlast, List.count_eq_zero.mpr (mt lineFeed_mem_encode.mp hlast)]

/-! ## Parts of a text -/

section Intercalate

variable {α : Type} (sep : List α)

theorem intercalate_isPrefix (xs ys : List (List α)) :
    sep.intercalate xs <+: sep.intercalate (xs ++ ys) := by
  induction xs with
  | nil => exact List.nil_prefix
  | cons x xs ih =>
    cases xs with
    | nil =>
      cases ys with
      | nil => exact List.prefix_rfl
      | cons y ys =>
        rw [List.intercalate_singleton, List.singleton_append, List.intercalate_cons_cons,
          List.append_assoc]
        exact List.prefix_append ..
    | cons x' xs =>
      rw [List.cons_append, List.cons_append, List.intercalate_cons_cons,
        List.intercalate_cons_cons]
      exact (List.prefix_append_right_inj _).mpr ih

theorem intercalate_isSuffix (xs ys : List (List α)) :
    sep.intercalate ys <:+ sep.intercalate (xs ++ ys) := by
  induction xs with
  | nil => exact List.suffix_rfl
  | cons x xs ih =>
    rw [List.cons_append]
    cases h : xs ++ ys with
    | nil =>
      rw [(List.append_eq_nil_iff.mp h).2]
      exact List.nil_suffix
    | cons z zs =>
      rw [List.intercalate_cons_cons, ← h]
      exact ih.trans (List.suffix_append ..)

end Intercalate

/-- Lines that follow one another in a text are a part of it. -/
theorem unlines_isInfix {ls ks : List String} (h : ls <:+: ks) :
    (Text.unlines ls).toList <:+: (Text.unlines ks).toList := by
  obtain ⟨before, after, rfl⟩ := h
  simp only [Text.unlines, Text.joinWith, String.toList_ofList, List.map_append]
  exact (intercalate_isSuffix ..).isInfix.trans (intercalate_isPrefix ..).isInfix

/-- The lines on which a node stands are a part of the text. -/
theorem Source.spanText_isInfix (s : Source) (n : Node) :
    (s.spanText n).toList <:+: s.text.toList := by
  have hlines : ∀ i j, (s.lines.take i).drop j <:+: s.lines := fun i j =>
    (List.drop_suffix j _).isInfix.trans (List.take_prefix i _).isInfix
  have h := unlines_isInfix (hlines (clampIndex s.lines.length (n.stop.row + 1))
    (clampIndex s.lines.length (n.start.row + 1 - 1)))
  rwa [s.lines_eq, Text.unlines_lines, ← s.lines_eq] at h

end CommentTypes
