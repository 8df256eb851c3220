import CommentTypes.Proofs.Source.Position

/-!
# The lines of a node

The text of a file is made of the lines before a node, the lines on which the node stands, and the
rest (`exists_span`). Where the node covers a part of the text, its lines are made of the beginning
of its first line, that part, and the end of its last line (`exists_lead_trail`).
-/

namespace CommentTypes

section Pieces

variable {α : Type} {a : α}

/-- Pieces with a separator between each two lack the last separator. -/
theorem intercalate_append_singleton {ls : List (List α)} (h : ls ≠ []) :
    [a].intercalate ls ++ [a] = closed a ls := by
  induction ls with
  | nil => exact absurd rfl h
  | cons l ls ih =>
    cases ls with
    | nil => simp [closed]
    | cons k ls =>
      rw [List.intercalate_cons_cons, List.append_assoc, List.append_assoc, ih (by simp),
        List.singleton_append]
      rfl

theorem intercalate_append_of_ne_nil (ls : List (List α)) {ks : List (List α)} (h : ks ≠ []) :
    [a].intercalate (ls ++ ks) = closed a ls ++ [a].intercalate ks := by
  have hclosed : [a].intercalate (ls ++ ks) ++ [a] = closed a ls ++ [a].intercalate ks ++ [a] := by
    rw [intercalate_append_singleton (by simp [h]), closed_append, List.append_assoc,
      intercalate_append_singleton h]
  exact List.append_cancel_right hclosed

theorem count_intercalate [DecidableEq α] {ls : List (List α)} (h : ls ≠ [])
    (hls : ∀ l ∈ ls, a ∉ l) : ([a].intercalate ls).count a + 1 = ls.length := by
  rw [← count_closed hls, ← intercalate_append_singleton h, List.count_append,
    List.count_singleton_self]

end Pieces

open Text.Utf8

/-- The node covers a part of the text. -/
structure Node.Covers (n : Node) (text : String) (before own after : List Char) : Prop where
  split : text.toList = before ++ own ++ after
  start : n.start = .ofByte text (encode before).length
  stop : n.stop = .ofByte text (encode (before ++ own)).length

namespace Source

/-- The number of characters before a line. -/
def lineStart (s : Source) (row : Nat) : Nat :=
  total (fun line => line.length + 1) (s.lines.take row)

theorem lineStart_of_take (s : Source) {row : Nat} {ls : List (List Char)}
    (h : (s.text.toList.splitOn '\n').take row = ls) :
    s.lineStart row = (closed '\n' ls).length := by
  rw [lineStart, s.lines_eq, Text.lines, ← List.map_take, h, total_map, length_closed]
  simp only [String.length_ofList]

theorem clampIndex_natCast (length index : Nat) : clampIndex length index = min index length := by
  unfold clampIndex
  rw [if_neg (by omega), Int.toNat_natCast]

theorem toList_spanText (s : Source) (n : Node) :
    (s.spanText n).toList = ['\n'].intercalate
      (((s.text.toList.splitOn '\n').take (n.stop.row + 1)).drop n.start.row) := by
  have hrow : (n.start.row + 1 - 1 : Int) = n.start.row := by omega
  have hid : String.toList ∘ String.ofList = id := by
    funext cs
    exact String.toList_ofList
  have hdrop : ∀ (ls : List String) (k : Nat), (ls.take k).drop (min n.start.row ls.length) =
      (ls.take k).drop n.start.row := by
    intro ls k
    rcases Nat.le_total n.start.row ls.length with h | h
    · rw [Nat.min_eq_left h]
    · rw [Nat.min_eq_right h, List.drop_eq_nil_of_le (List.length_take_le' ..),
        List.drop_eq_nil_of_le (Nat.le_trans (List.length_take_le' ..) h)]
  rw [spanText, lineSpan, hrow, clampIndex_natCast, ← Int.natCast_succ, clampIndex_natCast,
    ← List.take_eq_take_min, hdrop, s.lines_eq, Text.lines, ← List.map_take, ← List.map_drop,
    Text.unlines, Text.joinWith, String.toList_ofList, List.map_map, hid, List.map_id]
  rfl

/-- Where a node has lines that are not empty, the text is made of the lines before them, of these
lines, and of the rest. -/
theorem exists_span (s : Source) (n : Node) (h : (s.spanText n).toList ≠ []) :
    ∃ before after, s.text.toList = before ++ (s.spanText n).toList ++ after ∧
      before.length = s.lineStart n.start.row ∧ before.count '\n' = n.start.row ∧
      before.count '\n' + (s.spanText n).toList.count '\n' ≤ n.stop.row := by
  rw [toList_spanText] at h ⊢
  generalize htext : s.text.toList.splitOn '\n' = ls at h ⊢
  have hls : ∀ l ∈ ls, '\n' ∉ l := fun l hl => not_mem_of_mem_splitOn (htext ▸ hl)
  have hne : (ls.take (n.stop.row + 1)).drop n.start.row ≠ [] := fun e => h (by rw [e]; rfl)
  have hlength : n.start.row < min (n.stop.row + 1) ls.length := by
    rw [Ne, List.drop_eq_nil_iff, List.length_take] at hne
    omega
  have hcount := count_intercalate hne fun l hl =>
    hls l (List.mem_of_mem_take (List.mem_of_mem_drop hl))
  rw [List.length_drop, List.length_take] at hcount
  obtain ⟨after, hafter⟩ := intercalate_isPrefix ['\n']
    ((ls.take (n.stop.row + 1)).drop n.start.row) (ls.drop (n.stop.row + 1))
  have hbefore : (closed '\n' (ls.take n.start.row)).count '\n' = n.start.row := by
    rw [count_closed fun l hl => hls l (List.mem_of_mem_take hl), List.length_take]
    omega
  refine ⟨closed '\n' (ls.take n.start.row), after, ?_,
    (s.lineStart_of_take (by rw [htext])).symm, hbefore, by omega⟩
  have hrest : (ls.take (n.stop.row + 1)).drop n.start.row ++ ls.drop (n.stop.row + 1) =
      ls.drop n.start.row := by
    rw [← List.drop_append_of_le_length, List.take_append_drop]
    rw [List.length_take]
    omega
  rw [List.append_assoc, hafter, hrest, ← intercalate_append_of_ne_nil, List.take_append_drop,
    ← htext, List.intercalate_splitOn]
  rw [Ne, List.drop_eq_nil_iff]
  omega

/-- The lines of a node that covers a part of the text: the beginning of its first line, that part,
and the end of its last line. -/
theorem exists_lead_trail {s : Source} {n : Node} {before own after : List Char}
    (h : n.Covers s.text before own after) :
    ∃ front lead trail, before = front ++ lead ∧ trail <+: after ∧ '\n' ∉ lead ∧
      front.length = s.lineStart n.start.row ∧
      (s.spanText n).toList = lead ++ own ++ trail := by
  obtain ⟨ls, lead, rfl, hls, hlead⟩ := exists_closed '\n' before
  obtain ⟨ks, last, hown, hks, hlast⟩ := exists_closed '\n' (lead ++ own)
  obtain ⟨trail, more, hafter⟩ := List.exists_cons_of_ne_nil (List.splitOn_ne_nil '\n' after)
  have hsplit : closed '\n' ls ++ lead ++ own = closed '\n' (ls ++ ks) ++ last := by
    rw [List.append_assoc, hown, closed_append, List.append_assoc]
  have hlines : ∀ l ∈ ls ++ ks, '\n' ∉ l := fun l hl =>
    (List.mem_append.mp hl).elim (hls l) (hks l)
  have hstart : n.start.row = ls.length := by
    rw [h.start, ofByte_closed (h.split.trans (List.append_assoc ..)) hls hlead]
  have hstop : n.stop.row = (ls ++ ks).length := by
    rw [h.stop, hsplit, ofByte_closed (h.split.trans (by rw [hsplit])) hlines hlast]
  have htext : s.text.toList.splitOn '\n' = (ls ++ ks ++ [last ++ trail]) ++ more := by
    rw [h.split, hsplit, List.append_assoc, splitOn_closed_append hlines,
      splitOn_append_of_not_mem hlast, hafter, List.modifyHead_cons, List.append_assoc _ [_],
      List.singleton_append]
  refine ⟨closed '\n' ls, lead, trail, rfl, ?_, hlead, ?_, ?_⟩
  · have hjoin : ['\n'].intercalate (trail :: more) = after := by
      rw [← hafter, List.intercalate_splitOn]
    have htrail := intercalate_isPrefix ['\n'] [trail] more
    rwa [List.intercalate_singleton, List.singleton_append, hjoin] at htrail
  · refine (s.lineStart_of_take ?_).symm
    rw [hstart, htext, List.append_assoc, List.append_assoc, List.take_left]
  · have hlength : (ls ++ ks ++ [last ++ trail]).length = n.stop.row + 1 := by
      rw [hstop, List.length_append, List.length_singleton]
    rw [toList_spanText, htext, ← hlength, List.take_left, hstart, List.append_assoc,
      List.drop_left, intercalate_append_of_ne_nil _ (List.cons_ne_nil _ _),
      List.intercalate_singleton, ← List.append_assoc, ← hown]

end Source

end CommentTypes
