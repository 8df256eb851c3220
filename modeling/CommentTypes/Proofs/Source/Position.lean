import CommentTypes.Check.Step
import CommentTypes.Proofs.Text.Lines
import CommentTypes.Proofs.Tree.Order

/-!
# Locations are exact

A parser says where a node starts in rows and bytes (`Position.ofByte`), a report in lines and
characters (`Check.locationOf`). The text up to a point between two characters is made of full
lines and the beginning of one more, and both ways to count are read off it (`ofByte_closed`,
`charColumn_closed`). So the line and the column of a report give back the number of characters
before it (`charsBefore_locationOf`).
-/

namespace CommentTypes

open Text.Utf8

/-- The point of a text at a byte: its row is the number of line feeds before it, its column the
number of bytes after the last of them. -/
def Position.ofByte (text : String) (byte : Nat) : Position :=
  { byte
    row := lineFeeds text byte
    column := (((encode text.toList).take byte).reverse.takeWhile (· != 0x0a)).length }

/-- The node starts in the text right after some characters of it. -/
def Node.StartsAfter (n : Node) (text : String) (before : List Char) : Prop :=
  before <+: text.toList ∧ n.start = .ofByte text (encode before).length

instance (n : Node) (text : String) (before : List Char) : Decidable (n.StartsAfter text before) :=
  inferInstanceAs (Decidable (before <+: text.toList ∧
    n.start = .ofByte text (encode before).length))

/-- The number of characters before a location, with the line feeds, read off its line and
column. -/
def Location.charsBefore (l : Location) (lines : List String) : Int :=
  total (fun line => line.length + 1) (lines.take (l.line - 1).toNat) + (l.column - 1)

theorem lineFeeds_lt_length_lines (text : String) (byte : Nat) :
    lineFeeds text byte < (Text.lines text).length := by
  rw [Text.lines, List.length_map, length_splitOn, ← count_encode]
  exact Nat.lt_succ_of_le (List.Sublist.count_le _ (List.take_sublist ..))

/-- The row of a byte between two characters is the number of line feeds before it. -/
theorem lineFeeds_of_isPrefix {text : String} {before : List Char} (h : before <+: text.toList) :
    lineFeeds text (encode before).length = before.count '\n' := by
  obtain ⟨after, hafter⟩ := h
  rw [lineFeeds, ← hafter, encode_append, List.take_left, count_encode]

section

variable {text : String} {ls : List (List Char)} {last after : List Char}

/-- Where a text goes on after full lines and the beginning of one more, in rows and bytes. -/
theorem ofByte_closed (htext : text.toList = closed '\n' ls ++ last ++ after)
    (hls : ∀ l ∈ ls, '\n' ∉ l) (hlast : '\n' ∉ last) :
    Position.ofByte text (encode (closed '\n' ls ++ last)).length =
      { byte := (encode (closed '\n' ls ++ last)).length
        row := ls.length
        column := (encode last).length } := by
  have htake : (encode text.toList).take (encode (closed '\n' ls ++ last)).length =
      closed 0x0a (ls.map encode) ++ encode last := by
    rw [htext, encode_append (closed '\n' ls ++ last), List.take_left, encode_append, encode_closed]
  have hbytes : (0x0a : UInt8) ∉ encode last := mt lineFeed_mem_encode.mp hlast
  have hrow : lineFeeds text (encode (closed '\n' ls ++ last)).length = ls.length := by
    rw [lineFeeds_of_isPrefix ⟨after, htext.symm⟩, List.count_append, count_closed hls,
      List.count_eq_zero.mpr hlast, Nat.add_zero]
  rw [Position.ofByte, hrow, htake, takeWhile_reverse_closed _ hbytes, List.length_reverse]

/-- The characters of the line on which a text goes on are counted up to that point. -/
theorem charColumn_closed (htext : text.toList = closed '\n' ls ++ last ++ after)
    (hls : ∀ l ∈ ls, '\n' ∉ l) (hlast : '\n' ∉ last) :
    (Text.lines text).take ls.length = ls.map String.ofList ∧
      charColumn (byteLines text) ls.length (encode last).length = last.length := by
  obtain ⟨r, rs, hafter⟩ := List.exists_cons_of_ne_nil (List.splitOn_ne_nil '\n' after)
  have hlines : Text.lines text = ls.map String.ofList ++ (String.ofList (last ++ r)) ::
      rs.map String.ofList := by
    rw [Text.lines, htext, List.append_assoc, splitOn_closed_append hls,
      splitOn_append_of_not_mem hlast, hafter, List.modifyHead_cons, List.map_append, List.map_cons]
  have hlength : (ls.map String.ofList).length = ls.length := List.length_map ..
  refine ⟨by rw [hlines, ← hlength, List.take_left], ?_⟩
  have hline : (byteLines text)[ls.length]? = some (encode last ++ encode r) := by
    rw [byteLines_eq, hlines, List.getElem?_map, ← hlength, List.getElem?_append_right (Nat.le_refl _),
      Nat.sub_self, List.getElem?_cons_zero, Option.map_some, String.toList_ofList, encode_append]
  rw [charColumn, hline]
  dsimp only
  rw [List.take_left, decode_encode]

end

/-- The line and the column of a node give the number of characters before it. -/
theorem charsBefore_locationOf {s : Source} {n : Node} {before : List Char}
    (h : n.StartsAfter s.text before) :
    (Check.locationOf s n).charsBefore s.lines = before.length := by
  obtain ⟨⟨after, htext⟩, hstart⟩ := h
  obtain ⟨ls, last, rfl, hls, hlast⟩ := exists_closed '\n' before
  rw [ofByte_closed htext.symm hls hlast] at hstart
  obtain ⟨htake, hcolumn⟩ := charColumn_closed htext.symm hls hlast
  have hline : ((Check.locationOf s n).line - 1).toNat = ls.length := by
    simp only [Check.locationOf, Node.line, hstart]
    omega
  have hcol : (Check.locationOf s n).column - 1 = last.length := by
    simp only [Check.locationOf, Source.column, hstart, s.byteLines_eq, hcolumn]
    omega
  rw [Location.charsBefore, hline, hcol, s.lines_eq, htake, total_map, List.length_append,
    length_closed]
  simp only [String.length_ofList]
  omega

/-- Locations are exact. The lines of characters and of bytes of a file are the same lines. A node
that starts between two characters of the text starts on one of them, and its line and column give
the number of characters before it, so nodes that start apart have different lines or columns. -/
theorem locations_exact (s : Source) :
    (s.lines.length = s.byteLines.length ∧
      ∀ i : Nat, s.byteLines[i]? = s.lines[i]?.map fun l => encode l.toList) ∧
    (∀ (n : Node) (before : List Char), n.StartsAfter s.text before →
      n.start.row < s.lines.length ∧
      (Check.locationOf s n).charsBefore s.lines = before.length) ∧
    ∀ (m n : Node) (before before' : List Char), m.StartsAfter s.text before →
      n.StartsAfter s.text before' → m.start.byte ≠ n.start.byte →
      ((Check.locationOf s m).line, (Check.locationOf s m).column) ≠
        ((Check.locationOf s n).line, (Check.locationOf s n).column) := by
  refine ⟨⟨?_, fun i => ?_⟩, fun n before h => ⟨?_, charsBefore_locationOf h⟩, ?_⟩
  · rw [s.byteLines_eq, s.lines_eq, byteLines_eq, List.length_map]
  · rw [s.byteLines_eq, s.lines_eq, byteLines_eq, List.getElem?_map]
  · rw [h.2, s.lines_eq]
    exact lineFeeds_lt_length_lines ..
  · intro m n before before' hm hn hne heq
    obtain ⟨hline, hcolumn⟩ := Prod.mk.inj heq
    -- the same line and column count the same characters, which are the first of one text
    have hlength : before.length = before'.length := by
      have hcount := charsBefore_locationOf hm
      rw [Location.charsBefore, hline, hcolumn, ← Location.charsBefore,
        charsBefore_locationOf hn] at hcount
      omega
    have hbefore : before = before' :=
      (List.prefix_of_prefix_length_le hm.1 hn.1 (Nat.le_of_eq hlength)).eq_of_length hlength
    rw [hm.2, hn.2, hbefore] at hne
    exact hne rfl

/-- Two names on the second line, after characters of two to four bytes. -/
def wideNames : Source :=
  .ofOutline "a.js"
    "é;\n/*😀*/ ü = ß;"
    [.rule "program" "" 0 21 3, .rule "expression_statement" "" 0 3 0,
      .rule "identifier" "left" 13 15 0, .rule "identifier" "right" 18 20 0]

/-- The child of a sample at an index. -/
def Source.childAt (s : Source) (i : Nat) : Node :=
  s.root.children[i]?.getD s.root

theorem wideNames_locations :
    ((wideNames.childAt 1).StartsAfter wideNames.text "é;\n/*😀*/ ".toList ∧
      (wideNames.childAt 2).StartsAfter wideNames.text "é;\n/*😀*/ ü = ".toList ∧
      (wideNames.childAt 1).start.byte ≠ (wideNames.childAt 2).start.byte) ∧
    (Check.locationOf wideNames (wideNames.childAt 2)).charsBefore wideNames.lines = 13 ∧
    ((Check.locationOf wideNames (wideNames.childAt 1)).line,
        (Check.locationOf wideNames (wideNames.childAt 1)).column) ≠
      ((Check.locationOf wideNames (wideNames.childAt 2)).line,
        (Check.locationOf wideNames (wideNames.childAt 2)).column) := by
  have hfirst : (wideNames.childAt 1).StartsAfter wideNames.text "é;\n/*😀*/ ".toList := by
    decide +kernel
  have hsecond : (wideNames.childAt 2).StartsAfter wideNames.text "é;\n/*😀*/ ü = ".toList := by
    decide +kernel
  have hne : (wideNames.childAt 1).start.byte ≠ (wideNames.childAt 2).start.byte := by
    decide +kernel
  obtain ⟨-, hcount, hapart⟩ := locations_exact wideNames
  exact ⟨⟨hfirst, hsecond, hne⟩, (hcount _ _ hsecond).2, hapart _ _ _ _ hfirst hsecond hne⟩

end CommentTypes
