import CommentTypes.Proofs.Source.Position

/-!
# Columns in order

The column of a report counts the characters that begin before a byte of a line. The bytes up to
that one may end inside a character: what is left of it is one flaw (`pieces_of_cut`), which is shown
as one replacement character (`shownCut_decode_take`), so that it counts like a whole one
(`length_decode_take`). Columns therefore do not decrease with the byte (`charColumn_mono`), and are
at most the length of the line (`charColumn_counts_begun`).

Nor do rows and, on one row, bytes (`ofByte_le`). So of two nodes the one that starts first has the
location that is not after the other (`locationOf_upTo`).
-/

namespace CommentTypes

namespace Text.Utf8

/-! ## Cut characters -/

/-- A byte that gives no piece is followed by more of a character. -/
theorem step_eq_nil {state : Option Pending} {b : UInt8} (h : (step state b).1 = []) :
    ∃ p, (step state b).2 = some p := by
  have hbegin : (begin b).1 = [] → ∃ p, (begin b).2 = some p := by
    unfold begin
    dsimp only
    repeat' split
    all_goals simp
  cases state with
  | none => exact hbegin h
  | some p =>
    simp only [step] at h ⊢
    split at h
    · split at h
      · cases h
      · rename_i hbounds howed
        rw [if_pos hbounds, if_neg howed]
        exact ⟨_, rfl⟩
    · cases h

/-- What was begun gives a piece, also if it is not finished. -/
theorem piecesFrom_some_ne_nil (p : Pending) (bytes : List UInt8) :
    piecesFrom (some p) bytes ≠ [] := by
  induction bytes generalizing p with
  | nil => exact List.cons_ne_nil _ _
  | cons b bytes ih =>
    rw [piecesFrom_cons]
    intro h
    obtain ⟨hnone, hrest⟩ := List.append_eq_nil_iff.mp h
    obtain ⟨q, hq⟩ := step_eq_nil hnone
    rw [hq] at hrest
    exact ih q hrest

theorem piecesFrom_ne_nil (state : Option Pending) {bytes : List UInt8} (h : bytes ≠ []) :
    piecesFrom state bytes ≠ [] := by
  obtain ⟨b, bytes, rfl⟩ := List.exists_cons_of_ne_nil h
  rw [piecesFrom_cons]
  intro hnil
  obtain ⟨hnone, hrest⟩ := List.append_eq_nil_iff.mp hnil
  obtain ⟨p, hp⟩ := step_eq_nil hnone
  rw [hp] at hrest
  exact piecesFrom_some_ne_nil p bytes hrest

/-- Bytes are read as some pieces and lead to a state, whatever follows. If they give no piece, they
lead into a character. -/
theorem exists_read (state : Option Pending) (b : UInt8) (bytes : List UInt8) :
    ∃ (read : List Piece) (next : Option Pending),
      (∀ more, piecesFrom state (b :: bytes ++ more) = read ++ piecesFrom next more) ∧
      (read = [] → ∃ p, next = some p) := by
  induction bytes generalizing state b with
  | nil => exact ⟨_, _, fun more => piecesFrom_cons state b more, step_eq_nil⟩
  | cons b' bytes ih =>
    obtain ⟨read, next, hread, hnext⟩ := ih (step state b).2 b'
    refine ⟨(step state b).1 ++ read, next, fun more => ?_, fun hnil => ?_⟩
    · rw [List.cons_append, piecesFrom_cons, hread, List.append_assoc]
    · exact hnext (List.append_eq_nil_iff.mp hnil).2

/-- Where bytes are one piece, each beginning of them is one flaw. -/
theorem pieces_of_cut {front back : List UInt8} (hfront : front ≠ []) (hback : back ≠ [])
    {piece : Piece} (h : pieces (front ++ back) = [piece]) :
    ∃ size, pieces front = [.flaw size .truncated] := by
  obtain ⟨b, bytes, rfl⟩ := List.exists_cons_of_ne_nil hfront
  obtain ⟨read, next, hread, hnext⟩ := exists_read none b bytes
  -- the one piece comes of the bytes that were cut off, so there is none before
  have hnil : read = [] := by
    rw [pieces, hread] at h
    obtain ⟨q, qs, hq⟩ := List.exists_cons_of_ne_nil (piecesFrom_ne_nil next hback)
    rw [hq] at h
    cases read with
    | nil => rfl
    | cons r rs => simp at h
  obtain ⟨p, rfl⟩ := hnext hnil
  have hcut := hread []
  rw [List.append_nil, hnil, List.nil_append] at hcut
  exact ⟨p.read, hcut⟩

/-! ## Characters before a byte -/

/-- The number of characters of a text whose first byte is before a byte of the text. -/
def begunBefore (cs : List Char) (byte : Nat) : Nat :=
  (List.range cs.length).countP fun i => (encode (cs.take i)).length < byte

theorem begunBefore_mono (cs : List Char) {a b : Nat} (h : a ≤ b) :
    begunBefore cs a ≤ begunBefore cs b := by
  refine List.countP_mono_left fun i _ hi => ?_
  rw [decide_eq_true_iff] at hi ⊢
  omega

theorem begunBefore_zero (cs : List Char) : begunBefore cs 0 = 0 := by
  simp [begunBefore]

theorem begunBefore_cons (c : Char) (cs : List Char) {byte : Nat} (h : 0 < byte) :
    begunBefore (c :: cs) byte =
      begunBefore cs (byte - (String.utf8EncodeChar c).length) + 1 := by
  have hlater : ∀ i, ((encode ((c :: cs).take (i + 1))).length < byte) ↔
      (encode (cs.take i)).length < byte - (String.utf8EncodeChar c).length := fun i => by
    rw [List.take_succ_cons, encode_cons, List.length_append]
    omega
  rw [begunBefore, List.length_cons, List.range_succ_eq_map, List.countP_cons, List.countP_map,
    begunBefore]
  simp only [Function.comp_def, Nat.succ_eq_add_one, hlater, List.take_zero, encode_nil,
    List.length_nil, h, decide_true, if_true]

theorem begunBefore_le_length (cs : List Char) (byte : Nat) : begunBefore cs byte ≤ cs.length :=
  Nat.le_trans List.countP_le_length (Nat.le_of_eq List.length_range)

theorem decode_zero (cs : List Char) : decode ((encode cs).take 0) = [] := rfl

/-- A cut inside the first character leaves one replacement character. -/
theorem decode_take_of_cut {c : Char} {byte : Nat} (hpos : 0 < byte)
    (h : byte < (String.utf8EncodeChar c).length) (cs : List Char) :
    decode ((encode (c :: cs)).take byte) = ['\ufffd'] := by
  have hone : pieces (String.utf8EncodeChar c) = [.char c] := by
    have hread := piecesFrom_encodeChar c []
    rwa [List.append_nil] at hread
  rw [← List.take_append_drop byte (String.utf8EncodeChar c)] at hone
  obtain ⟨size, hflaw⟩ := pieces_of_cut
    (List.ne_nil_of_length_pos (by rw [List.length_take]; omega))
    (List.ne_nil_of_length_pos (by rw [List.length_drop]; omega)) hone
  rw [decode, encode_cons, List.take_append, Nat.sub_eq_zero_of_le (Nat.le_of_lt h),
    List.take_zero, List.append_nil, hflaw]
  rfl

/-- A cut behind the first character leaves it whole. -/
theorem decode_take_of_whole {c : Char} {byte : Nat} (h : (String.utf8EncodeChar c).length ≤ byte)
    (cs : List Char) :
    decode ((encode (c :: cs)).take byte) =
      c :: decode ((encode cs).take (byte - (String.utf8EncodeChar c).length)) := by
  rw [decode, encode_cons, List.take_append, List.take_of_length_le h, pieces,
    piecesFrom_encodeChar, List.map_cons]
  rfl

/-- A text that is cut at a byte is shown with as many characters as begin before the byte. -/
theorem length_decode_take (cs : List Char) (byte : Nat) :
    (decode ((encode cs).take byte)).length = begunBefore cs byte := by
  induction cs generalizing byte with
  | nil => simp [begunBefore, decode, pieces, piecesFrom]
  | cons c cs ih =>
    rcases Nat.eq_zero_or_pos byte with rfl | hpos
    · rw [begunBefore_zero, decode_zero, List.length_nil]
    · rw [begunBefore_cons c cs hpos, ← ih]
      rcases Nat.lt_or_ge byte (String.utf8EncodeChar c).length with hcut | hwhole
      · rw [decode_take_of_cut hpos hcut, Nat.sub_eq_zero_of_le (Nat.le_of_lt hcut), decode_zero]
        rfl
      · rw [decode_take_of_whole hwhole, List.length_cons]

/-- A text that is cut at a byte is shown like this: its characters, if the cut is between two of
them or behind the last; else the characters that are whole, and a replacement character for the one
that is cut. -/
def ShownCut (cs : List Char) (byte : Nat) (shown : List Char) : Prop :=
  (shown <+: cs ∧ (encode shown).length = min byte (encode cs).length) ∨
    ∃ whole c rest, cs = whole ++ c :: rest ∧ shown = whole ++ ['\ufffd'] ∧
      (encode whole).length < byte ∧ byte < (encode (whole ++ [c])).length

theorem ShownCut.cons {cs shown : List Char} {byte : Nat} {c : Char}
    (hle : (String.utf8EncodeChar c).length ≤ byte)
    (h : ShownCut cs (byte - (String.utf8EncodeChar c).length) shown) :
    ShownCut (c :: cs) byte (c :: shown) := by
  rcases h with ⟨hfront, hlength⟩ | ⟨whole, c', rest, rfl, rfl, hstart, hstop⟩
  · refine .inl ⟨(List.prefix_cons_inj c).mpr hfront, ?_⟩
    rw [encode_cons, encode_cons, List.length_append, List.length_append, hlength]
    omega
  · refine .inr ⟨c :: whole, c', rest, rfl, rfl, ?_, ?_⟩
    · rw [encode_cons, List.length_append]
      omega
    · rw [List.cons_append, encode_cons, List.length_append]
      omega

theorem shownCut_decode_take (cs : List Char) (byte : Nat) :
    ShownCut cs byte (decode ((encode cs).take byte)) := by
  induction cs generalizing byte with
  | nil => exact .inl ⟨by simp [decode, pieces, piecesFrom], by simp [decode, pieces, piecesFrom]⟩
  | cons c cs ih =>
    rcases Nat.eq_zero_or_pos byte with rfl | hpos
    · rw [decode_zero]
      exact .inl ⟨List.nil_prefix, (Nat.zero_min _).symm⟩
    · rcases Nat.lt_or_ge byte (String.utf8EncodeChar c).length with hcut | hwhole
      · rw [decode_take_of_cut hpos hcut]
        refine .inr ⟨[], c, cs, rfl, rfl, hpos, ?_⟩
        rwa [List.nil_append, encode_cons, encode_nil, List.append_nil]
      · rw [decode_take_of_whole hwhole]
        exact .cons hwhole (ih _)

end Text.Utf8

open Text.Utf8

/-! ## Columns -/

/-- On a line of a text the column counts the characters that begin before the byte. -/
theorem charColumn_of_line {text line : String} {row : Nat}
    (h : (Text.lines text)[row]? = some line) (column : Nat) :
    charColumn (byteLines text) row column = begunBefore line.toList column := by
  rw [charColumn, byteLines_eq, List.getElem?_map, h, Option.map_some]
  exact length_decode_take ..

theorem charColumn_mono (text : String) (row : Nat) {a b : Nat} (h : a ≤ b) :
    charColumn (byteLines text) row a ≤ charColumn (byteLines text) row b := by
  cases hline : (Text.lines text)[row]? with
  | none =>
    have hnone : (byteLines text)[row]? = none := by
      rw [byteLines_eq, List.getElem?_map, hline, Option.map_none]
    rwa [charColumn, charColumn, hnone]
  | some line =>
    rw [charColumn_of_line hline, charColumn_of_line hline]
    exact begunBefore_mono _ h

/-- The column counts the characters of its line that begin before the byte, also where the byte is
inside a character or behind the line: the bytes up to it are shown as the characters that are
whole, with one replacement character for one that is cut. So the column does not decrease with the
byte and is at most the length of the line. -/
theorem charColumn_counts_begun (text : String) (row : Nat) (h : row < (byteLines text).length) :
    ∃ line, (Text.lines text)[row]? = some line ∧
      (byteLines text)[row]? = some (encode line.toList) ∧
      (∀ column : Nat, charColumn (byteLines text) row column = begunBefore line.toList column ∧
        charColumn? (byteLines text) row column = some (begunBefore line.toList column : Int) ∧
        ShownCut line.toList column (decode ((encode line.toList).take column)) ∧
        charColumn (byteLines text) row column ≤ line.length) ∧
      ∀ a b : Nat, a ≤ b →
        charColumn (byteLines text) row a ≤ charColumn (byteLines text) row b := by
  have hrow : row < (Text.lines text).length := by rwa [byteLines_eq, List.length_map] at h
  have hline := List.getElem?_eq_getElem hrow
  refine ⟨_, hline, ?_, fun column => ?_, fun a b => charColumn_mono text row⟩
  · rw [byteLines_eq, List.getElem?_map, hline, Option.map_some]
  · have hcolumn := charColumn_of_line hline column
    refine ⟨hcolumn, ?_, shownCut_decode_take .., ?_⟩
    · rw [charColumn?_natCast, hcolumn]
    · rw [hcolumn, ← String.length_toList]
      exact begunBefore_le_length ..

theorem wideNames_columns :
    1 < (byteLines wideNames.text).length ∧
    (charColumn (byteLines wideNames.text) 1 4 = 3 ∧
      ShownCut "/*😀*/ ü = ß;".toList 4 "/*\ufffd".toList) ∧
    (charColumn (byteLines wideNames.text) 1 4 ≤ charColumn (byteLines wideNames.text) 1 99 ∧
      charColumn (byteLines wideNames.text) 1 99 ≤ 12) := by
  have hrow : 1 < (byteLines wideNames.text).length := by decide +kernel
  have hsecond : (Text.lines wideNames.text)[1]? = some "/*😀*/ ü = ß;" := by decide +kernel
  have hcount : begunBefore "/*😀*/ ü = ß;".toList 4 = 3 := by decide +kernel
  have hshown : decode ((encode "/*😀*/ ü = ß;".toList).take 4) = "/*\ufffd".toList := by
    decide +kernel
  have hlength : "/*😀*/ ü = ß;".length = 12 := by decide +kernel
  obtain ⟨line, hline, -, hcolumn, hmono⟩ := charColumn_counts_begun wideNames.text 1 hrow
  rw [hsecond, Option.some_inj] at hline
  subst hline
  obtain ⟨hfour, -, hcut, -⟩ := hcolumn 4
  rw [hcount] at hfour
  rw [hshown] at hcut
  have hend := (hcolumn 99).2.2.2
  rw [hlength] at hend
  exact ⟨hrow, ⟨hfour, hcut⟩, hmono 4 99 (by decide), hend⟩

/-! ## Positions and locations -/

/-- Of two bytes the later one is on a later row, or on the same row and not before. -/
theorem Position.ofByte_le (text : String) {a b : Nat} (h : a ≤ b) :
    (ofByte text a).row < (ofByte text b).row ∨
      (ofByte text a).row = (ofByte text b).row ∧
        (ofByte text a).column ≤ (ofByte text b).column := by
  obtain ⟨between, hbetween⟩ : (encode text.toList).take a <+: (encode text.toList).take b :=
    List.take_prefix_take_left h
  have hrows : lineFeeds text b = lineFeeds text a + between.count 0x0a := by
    rw [lineFeeds, lineFeeds, ← hbetween, List.count_append]
  simp only [ofByte, hrows]
  rcases Nat.eq_zero_or_pos (between.count 0x0a) with hnone | hsome
  · right
    refine ⟨by omega, ?_⟩
    -- without a line feed between them, the bytes since the last one are counted on
    have hrun : ∀ x ∈ between.reverse, (x != 0x0a) = true := fun x hx =>
      bne_iff_ne.mpr fun e => List.count_eq_zero.mp hnone (e ▸ List.mem_reverse.mp hx)
    rw [← hbetween, List.reverse_append, List.takeWhile_append_of_pos hrun, List.length_append]
    omega
  · left
    omega

/-- The location is not after another one of the same file. -/
def Location.UpTo (l m : Location) : Prop :=
  l.line < m.line ∨ l.line = m.line ∧ l.column ≤ m.column

instance (l m : Location) : Decidable (l.UpTo m) :=
  inferInstanceAs (Decidable (l.line < m.line ∨ l.line = m.line ∧ l.column ≤ m.column))

/-- The node starts at the point that its text has at the byte. -/
def Node.StartsIn (n : Node) (text : String) : Prop :=
  n.start = .ofByte text n.start.byte

instance (n : Node) (text : String) : Decidable (n.StartsIn text) :=
  inferInstanceAs (Decidable (n.start = .ofByte text n.start.byte))

/-- Nodes have their locations in the order of the bytes on which they start. -/
theorem locationOf_upTo {s : Source} {m n : Node} (hm : m.StartsIn s.text)
    (hn : n.StartsIn s.text) (h : m.start.byte ≤ n.start.byte) :
    (Check.locationOf s m).UpTo (Check.locationOf s n) := by
  have hle := Position.ofByte_le s.text h
  rw [← hm, ← hn] at hle
  simp only [Location.UpTo, Check.locationOf, Node.line, Source.column, s.byteLines_eq]
  rcases hle with hrow | ⟨hrow, hcolumn⟩
  · left
    omega
  · right
    have hchars := charColumn_mono s.text n.start.row hcolumn
    rw [hrow]
    omega

end CommentTypes
