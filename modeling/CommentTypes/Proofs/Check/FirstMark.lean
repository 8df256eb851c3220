import CommentTypes.Check.Directive
import CommentTypes.Proofs.Source.Position

/-!
# The line of the first mark

The mark that ends checking is looked for line by line. A line feed is no part of it, so an
occurrence in the text lies within one line, and the first line with a mark is the one on which the
text has its first (`findIdx?_splitOn`). The line feeds before it are the full lines before it, and
they are counted by the row of a node that starts there (`lineFeeds_of_isPrefix`).
-/

namespace CommentTypes

theorem occursIn_iff_isInfix (part text : List Char) :
    occursIn part text = true ↔ part <:+: text := by
  induction text with
  | nil => rw [occursIn, List.isEmpty_iff, List.infix_nil]
  | cons c cs ih =>
    rw [occursIn, Bool.or_eq_true, List.isPrefixOf_iff_prefix, ih, List.infix_cons_iff]

/-- The part occurs in the text behind so many characters, and not behind fewer. -/
def FirstAt (part text : List Char) (k : Nat) : Prop :=
  part <+: text.drop k ∧ ∀ j < k, ¬ part <+: text.drop j

instance (part text : List Char) (k : Nat) : Decidable (FirstAt part text k) :=
  inferInstanceAs (Decidable (part <+: text.drop k ∧ ∀ j < k, ¬ part <+: text.drop j))

variable {part text : List Char} {k : Nat}

/-- What occurs in a text has a first occurrence. -/
theorem exists_firstAt (h : part <:+: text) : ∃ k, FirstAt part text k := by
  induction text with
  | nil =>
    rw [List.infix_nil.mp h]
    exact ⟨0, List.nil_prefix, fun j hj => absurd hj (Nat.not_lt_zero j)⟩
  | cons c cs ih =>
    by_cases hhere : part <+: c :: cs
    · exact ⟨0, hhere, fun j hj => absurd hj (Nat.not_lt_zero j)⟩
    · obtain ⟨k, hk, hfirst⟩ := ih ((List.infix_cons_iff.mp h).resolve_left hhere)
      refine ⟨k + 1, hk, fun j hj => ?_⟩
      cases j with
      | zero => exact hhere
      | succ j => exact hfirst j (Nat.lt_of_succ_lt_succ hj)

/-- A full line before the first occurrence has none. -/
theorem FirstAt.not_isInfix {ls : List (List Char)} {rest l : List Char}
    (h : FirstAt part (closed '\n' ls ++ rest) k) (hk : (closed '\n' ls).length ≤ k)
    (hl : l ∈ ls) : ¬ part <:+: l := by
  rintro ⟨lead, trail, rfl⟩
  obtain ⟨ls₁, ls₂, rfl⟩ := List.append_of_mem hl
  -- the occurrence in the line is one in the text, at the place where the line has it
  have hsplit : closed '\n' (ls₁ ++ (lead ++ part ++ trail) :: ls₂) ++ rest =
      (closed '\n' ls₁ ++ lead) ++ (part ++ (trail ++ '\n' :: closed '\n' ls₂ ++ rest)) := by
    rw [closed_append, closed]
    simp only [List.append_assoc, List.cons_append]
  have hlength := congrArg List.length hsplit
  simp only [List.length_append, List.length_cons] at hlength
  refine h.2 (closed '\n' ls₁ ++ lead).length ?_ ?_
  · simp only [List.length_append]
    omega
  · rw [hsplit, List.drop_left]
    exact List.prefix_append ..

/-- The first line with a part that has no line feed is the line of its first occurrence in the
text. -/
theorem findIdx?_splitOn (hpart : '\n' ∉ part) (h : FirstAt part text k) :
    (text.splitOn '\n').findIdx? (occursIn part) = some ((text.take k).count '\n') := by
  obtain ⟨after, hafter⟩ := h.1
  obtain ⟨ls, last, hbefore, hls, hlast⟩ := exists_closed '\n' (text.take k)
  obtain ⟨trail, more, hmore⟩ := List.exists_cons_of_ne_nil (List.splitOn_ne_nil '\n' after)
  have htext : text = closed '\n' ls ++ (last ++ part ++ after) := by
    rw [← List.take_append_drop k text, hbefore, ← hafter, List.append_assoc, List.append_assoc]
  have hnone : ls.findIdx? (occursIn part) = none := by
    have hk : (closed '\n' ls).length ≤ k := by
      have hlength := congrArg List.length hbefore
      rw [List.length_take, List.length_append] at hlength
      omega
    refine List.findIdx?_eq_none_iff.mpr fun l hl => Bool.eq_false_iff.mpr ?_
    rw [Ne, occursIn_iff_isInfix]
    exact FirstAt.not_isInfix (htext ▸ h) hk hl
  have hline : occursIn part (last ++ part ++ trail) = true :=
    (occursIn_iff_isInfix ..).mpr (List.infix_append ..)
  have hlines : text.splitOn '\n' = ls ++ (last ++ part ++ trail) :: more := by
    rw [htext, splitOn_closed_append hls, splitOn_append_of_not_mem, hmore, List.modifyHead_cons]
    exact mt List.mem_append.mp (not_or.mpr ⟨hlast, hpart⟩)
  rw [hlines, List.findIdx?_append, hnone, List.findIdx?_cons, hline, hbefore, List.count_append,
    count_closed hls, List.count_eq_zero.mpr hlast]
  simp

theorem Text.isInfix_of_mem_lines {text line : String} (h : line ∈ Text.lines text) :
    line.toList <:+: text.toList := by
  obtain ⟨before, after, hlines⟩ := List.append_of_mem h
  have hamong : [line] <:+: Text.lines text :=
    ⟨before, after, by rw [hlines, List.append_assoc, List.singleton_append]⟩
  have hpart := unlines_isInfix hamong
  have hline : Text.unlines [line] = line := by
    rw [Text.unlines, Text.joinWith, List.map_singleton, List.intercalate_singleton,
      String.ofList_toList]
  rwa [hline, Text.unlines_lines] at hpart

namespace Directives

theorem lineFeed_not_mem_mark : '\n' ∉ skipRemainingMark := by
  decide

/-- The line of the first mark, read off its first occurrence in the text. -/
theorem cutoffLine?_of_firstAt {text : String} {k : Nat}
    (h : FirstAt skipRemainingMark text.toList k) :
    cutoffLine? (Text.lines text) = some (1 + (text.toList.take k).count '\n') := by
  have htest : (fun line : String => occursIn skipRemainingMark line.toList) ∘ String.ofList =
      occursIn skipRemainingMark := by
    funext cs
    rw [Function.comp_apply, String.toList_ofList]
  rw [cutoffLine?, Text.lines, List.findIdx?_map, htest, findIdx?_splitOn lineFeed_not_mem_mark h,
    Option.map_some, Nat.add_comm]

theorem cutoffLine?_eq_none_iff (text : String) :
    cutoffLine? (Text.lines text) = none ↔ ¬ skipRemainingMark <:+: text.toList := by
  constructor
  · intro hnone hoccurs
    obtain ⟨k, hk⟩ := exists_firstAt hoccurs
    rw [cutoffLine?_of_firstAt hk] at hnone
    cases hnone
  · intro hnever
    refine Option.map_eq_none_iff.mpr (List.findIdx?_eq_none_iff.mpr fun line hline =>
      Bool.eq_false_iff.mpr ?_)
    rw [Ne, occursIn_iff_isInfix]
    exact fun h => hnever (h.trans (Text.isInfix_of_mem_lines hline))

/-- Checking ends after the line of the first mark. No line is found exactly if the mark does not
occur in the text. Otherwise there is a first occurrence, and the line is one more than the number of
line feeds before it, which is the line of a node that starts there. The directives of a file have
this line. -/
theorem cutoff_at_first_mark (text : String) :
    (cutoffLine? (Text.lines text) = none ↔ ¬ skipRemainingMark <:+: text.toList) ∧
    (skipRemainingMark <:+: text.toList → ∃ k, FirstAt skipRemainingMark text.toList k) ∧
    (∀ k, FirstAt skipRemainingMark text.toList k →
      cutoffLine? (Text.lines text) = some (1 + (text.toList.take k).count '\n') ∧
      ∀ n : Node, n.StartsAfter text (text.toList.take k) →
        cutoffLine? (Text.lines text) = some n.line) ∧
    ∀ s : Source, s.text = text →
      (ofSource s).cutoff = (cutoffLine? (Text.lines text)).map Int.ofNat := by
  refine ⟨cutoffLine?_eq_none_iff text, exists_firstAt, fun k hk => ?_, fun s hs => ?_⟩
  · have hcutoff := cutoffLine?_of_firstAt hk
    refine ⟨hcutoff, fun n hn => ?_⟩
    have hrow : n.start.row = (text.toList.take k).count '\n' := by
      rw [hn.2]
      exact lineFeeds_of_isPrefix hn.1
    rw [hcutoff, Node.line, hrow, Nat.add_comm]
  · rw [ofSource, s.lines_eq, hs]

/-- A mark on the second line, behind a comment with a character of two bytes, and one on the
third. -/
def markedTwice : Source :=
  .ofOutline "a.js" "let a;\n/* é */ /*: skip-remaining */ b;\n/*: skip-remaining */"
    [.rule "program" "" 0 62 5, .rule "lexical_declaration" "" 0 6 0, .rule "comment" "" 7 15 0,
      .rule "comment" "" 16 37 0, .rule "expression_statement" "" 38 40 0,
      .rule "comment" "" 41 62 0]

theorem markedTwice_cutoff :
    (skipRemainingMark <:+: markedTwice.text.toList ∧
      FirstAt skipRemainingMark markedTwice.text.toList 15 ∧
      (markedTwice.childAt 2).StartsAfter markedTwice.text (markedTwice.text.toList.take 15)) ∧
    cutoffLine? (Text.lines markedTwice.text) = some 2 ∧
    cutoffLine? (Text.lines markedTwice.text) = some (markedTwice.childAt 2).line ∧
    (ofSource markedTwice).cutoff = some 2 := by
  have hfirst : FirstAt skipRemainingMark markedTwice.text.toList 15 := by decide +kernel
  have hstarts : (markedTwice.childAt 2).StartsAfter markedTwice.text
      (markedTwice.text.toList.take 15) := by decide +kernel
  have hcount : (markedTwice.text.toList.take 15).count '\n' = 1 := by decide +kernel
  have hoccurs : skipRemainingMark <:+: markedTwice.text.toList :=
    hfirst.1.isInfix.trans (List.drop_suffix ..).isInfix
  obtain ⟨-, -, hline, hsource⟩ := cutoff_at_first_mark markedTwice.text
  obtain ⟨hcutoff, hnode⟩ := hline 15 hfirst
  rw [hcount] at hcutoff
  refine ⟨⟨hoccurs, hfirst, hstarts⟩, hcutoff, hnode _ hstarts, ?_⟩
  rw [hsource markedTwice rfl, hcutoff]
  rfl

end Directives

end CommentTypes
