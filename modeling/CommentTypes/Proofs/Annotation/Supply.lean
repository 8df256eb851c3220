import CommentTypes.Annotation.Lookup
import CommentTypes.Proofs.Annotation.Inline
import CommentTypes.Proofs.Source.Span
import CommentTypes.Proofs.Tree.Below

/-!
# Where annotations come from

The annotation of a declarator is the type at one place of the text or in one comment
(`Source.supply?`, `annotation?_eq_supply`). A place in the text stands on the lines of the
declarator (`rowAt_of_inlinePlace?`). It is the first one there, and so the first one in the
declarator itself, unless it starts earlier on the same line (`exists_inlinePlace?_of_covers`). A
comment leads the declarator or ends on the line above it (`leads_or_above`).
-/

namespace CommentTypes

namespace Pattern

variable {p : Pattern}

/-- The occurrence of a pattern at a place of a text. -/
def at? (p : Pattern) (cs : List Char) (start : Nat) : Option Occurrence :=
  (p (cs.drop start)).map fun (parts, rest) =>
    ⟨start, start + ((cs.drop start).length - rest.length), parts⟩

/-- The first of the occurrences in a text that starts at `offset`. -/
theorem exists_of_head?_occurrencesFrom {offset : Nat} {cs : List Char} {o : Occurrence}
    (h : (occurrencesFrom p offset 0 cs).head? = some o) :
    ∃ k rest, k < cs.length ∧ p (cs.drop k) = some (o.parts, rest) ∧ o.start = offset + k ∧
      o.stop = o.start + ((cs.drop k).length - rest.length) ∧ ∀ j < k, p (cs.drop j) = none := by
  induction cs generalizing offset with
  | nil => cases h
  | cons c cs ih =>
    rw [occurrencesFrom] at h
    split at h
    · rename_i parts rest hp
      cases h
      exact ⟨0, rest, by simp, hp, rfl, rfl, by simp⟩
    · rename_i hp
      obtain ⟨k, rest, hk, hfound, hstart, hstop, hfirst⟩ := ih h
      refine ⟨k + 1, rest, by simpa using hk, hfound, by omega, hstop, fun j hj => ?_⟩
      cases j with
      | zero => exact hp
      | succ j => exact hfirst j (by omega)

end Pattern

theorem findSome?_eq_bind_find? {α β : Type} (f : α → Option β) (as : List α) :
    as.findSome? f = (as.find? fun a => (f a).isSome).bind f := by
  induction as with
  | nil => rfl
  | cons a as ih =>
    rw [List.findSome?_cons, List.find?_cons]
    cases h : f a with
    | none => exact ih
    | some b => exact h.symm

/-- What an annotation is read from: a place of the text, or the type tag of a comment. -/
inductive Supply where
  | inline (place : Occurrence)
  | tag (comment : Node)

/-- The type at the place or in the comment. -/
def Supply.type? : Supply → Option String
  | .inline place => place.parts.head?
  | .tag comment => Form.typeTag.find? comment.body

namespace Source

variable {s : Source}

/-- The number of line feeds before a character of the text. -/
def rowAt (s : Source) (index : Nat) : Nat :=
  (s.text.toList.take index).count '\n'

/-- The first place with an inline annotation on the lines of a node. -/
def inlinePlace? (s : Source) (n : Node) : Option Occurrence :=
  (Form.inline.occurrencesFrom (s.lineStart n.start.row) 0 (s.spanText n).toList).head?

/-- What the annotation of a declarator is read from. -/
def supply? (s : Source) (c : Cursor) : Option Supply :=
  ((s.inlinePlace? c.node).map .inline).or
    (((s.candidates c).find? fun m => (Form.typeTag.find? m.body).isSome).map .tag)

/-! ## Places in the text -/

theorem inlineType?_eq (s : Source) (n : Node) :
    s.inlineType? n = (s.inlinePlace? n).bind fun o => o.parts.head? := by
  rw [inlineType?, Pattern.find?, Pattern.firstFrom_eq_head? _ (s.lineStart n.start.row),
    Option.bind_map]
  rfl

/-- The place is one of the text. -/
theorem at?_of_inlinePlace? {n : Node} {o : Occurrence} (h : s.inlinePlace? n = some o) :
    Form.inline.at? s.text.toList o.start = some o := by
  obtain ⟨k, rest, hk, hfound, hstart, hstop, -⟩ := Pattern.exists_of_head?_occurrencesFrom h
  obtain ⟨before, after, htext, hlength, -⟩ :=
    s.exists_span n (List.ne_nil_of_length_pos (Nat.zero_lt_of_lt hk))
  have hdrop : s.text.toList.drop o.start = (s.spanText n).toList.drop k ++ after := by
    rw [hstart, ← hlength, htext, List.append_assoc, List.drop_length_add_append,
      List.drop_append_of_le_length (Nat.le_of_lt hk)]
  -- both what is left of the text and what follows the place are longer by the lines below
  have hsame : ((s.spanText n).toList.drop k ++ after).length - (rest ++ after).length =
      ((s.spanText n).toList.drop k).length - rest.length := by
    rw [List.length_append, List.length_append, Nat.add_sub_add_right]
  rw [Pattern.at?, hdrop, Form.inline_append hfound after, Option.map_some]
  dsimp only
  rw [hsame, ← hstop]

theorem rowAt_mono (s : Source) {i j : Nat} (h : i ≤ j) : s.rowAt i ≤ s.rowAt j :=
  List.Sublist.count_le _ (List.take_sublist_take_left h)

theorem rowAt_length {front rest : List Char} (h : s.text.toList = front ++ rest) :
    s.rowAt front.length = front.count '\n' := by
  rw [rowAt, h, List.take_left]

/-- The place is on the lines of the node. -/
theorem rowAt_of_inlinePlace? {n : Node} {o : Occurrence} (h : s.inlinePlace? n = some o) :
    n.start.row ≤ s.rowAt o.start ∧ s.rowAt o.start ≤ s.rowAt o.stop ∧
      s.rowAt o.stop ≤ n.stop.row := by
  obtain ⟨k, rest, hk, -, hstart, hstop, -⟩ := Pattern.exists_of_head?_occurrencesFrom h
  obtain ⟨before, after, htext, hlength, hrow, hrows⟩ :=
    s.exists_span n (List.ne_nil_of_length_pos (Nat.zero_lt_of_lt hk))
  rw [List.length_drop] at hstop
  have hbefore : s.rowAt before.length = n.start.row := by
    rw [rowAt_length (htext.trans (List.append_assoc ..)), hrow]
  have hspan : s.rowAt (before ++ (s.spanText n).toList).length ≤ n.stop.row := by
    rwa [rowAt_length htext, List.count_append]
  rw [List.length_append] at hspan
  refine ⟨?_, s.rowAt_mono (by omega), Nat.le_trans (s.rowAt_mono (by omega)) hspan⟩
  rw [← hbefore]
  exact s.rowAt_mono (by omega)

theorem start_row_of_covers {n : Node} {before own after : List Char}
    (h : n.Covers s.text before own after) : s.rowAt before.length = n.start.row := by
  have htext : s.text.toList = before ++ (own ++ after) := h.split.trans (List.append_assoc ..)
  have htake : (Text.Utf8.encode s.text.toList).take (Text.Utf8.encode before).length =
      Text.Utf8.encode before := by
    rw [htext, Text.Utf8.encode_append, List.take_left]
  rw [rowAt_length htext, h.start, Position.ofByte, lineFeeds, htake, count_encode]

/-- Where a part of the lines of a node holds an inline annotation, there is a first one. -/
theorem exists_inlinePlace?_of_infix {n : Node} {part : List Char} {type : String}
    (h : Form.inline.find? (String.ofList part) = some type)
    (hpart : part <:+: (s.spanText n).toList) : ∃ o, s.inlinePlace? n = some o := by
  refine Option.ne_none_iff_exists'.mp fun hnone => ?_
  have hinline : s.inlineType? n = none := by rw [inlineType?_eq, hnone, Option.bind_none]
  rw [← String.toList_ofList (l := part)] at hpart
  rw [Form.find?_inline_of_infix hinline hpart] at h
  cases h

/-- Where the part of the text that a node covers holds an inline annotation, there is one on the
lines of the node. The first of them is the first one of that part, unless it starts before the
node, which is on the first line then. -/
theorem exists_inlinePlace?_of_covers {n : Node} {before own after : List Char}
    (h : n.Covers s.text before own after) {type : String}
    (hown : Form.inline.find? (String.ofList own) = some type) :
    ∃ o, s.inlinePlace? n = some o ∧
      (o.start < before.length → s.rowAt o.start = n.start.row) ∧
      (before.length ≤ o.start →
        o.stop ≤ before.length + own.length ∧ o.parts.head? = some type) := by
  obtain ⟨front, lead, trail, rfl, -, -, hlength, hspan⟩ := exists_lead_trail h
  obtain ⟨o, hplace⟩ := exists_inlinePlace?_of_infix hown ⟨lead, trail, hspan.symm⟩
  obtain ⟨k, rest, -, hfound, hstart, hstop, hfirst⟩ :=
    Pattern.exists_of_head?_occurrencesFrom hplace
  rw [List.length_append, hlength]
  refine ⟨o, hplace, fun hlt => ?_, fun hge => ?_⟩
  · refine Nat.le_antisymm ?_ (rowAt_of_inlinePlace? hplace).1
    rw [← start_row_of_covers h, List.length_append, hlength]
    exact s.rowAt_mono (Nat.le_of_lt hlt)
  · -- the first place in the part that the node covers
    rw [Pattern.find?, String.toList_ofList, Pattern.firstFrom_eq_head? _ 0] at hown
    obtain ⟨parts, hparts, htype⟩ := Option.bind_eq_some_iff.mp hown
    obtain ⟨o', ho', rfl⟩ := Option.map_eq_some_iff.mp hparts
    obtain ⟨k', rest', hk', hfound', -, -, hfirst'⟩ := Pattern.exists_of_head?_occurrencesFrom ho'
    have hdrop : ∀ i ≤ own.length,
        (s.spanText n).toList.drop (lead.length + i) = own.drop i ++ trail := fun i hi => by
      rw [hspan, List.append_assoc, List.drop_length_add_append, List.drop_append_of_le_length hi]
    obtain ⟨i, rfl⟩ : ∃ i, k = lead.length + i := ⟨k - lead.length, by omega⟩
    have hik : i ≤ k' := by
      refine Nat.le_of_not_lt fun hlt => ?_
      have hnone := hfirst (lead.length + k') (by omega)
      rw [hdrop k' (Nat.le_of_lt hk'), Form.inline_append hfound' trail] at hnone
      cases hnone
    rw [hdrop i (by omega)] at hfound hstop
    obtain ⟨rfl, hparts, rfl⟩ := Form.inline_first_unique hfound' hfirst' hfound fun m hm => by
      rw [← hdrop m (by omega)]
      exact hfirst _ (by omega)
    rw [hparts]
    refine ⟨?_, htype⟩
    rw [List.length_append, List.length_append, List.length_drop] at hstop
    omega

/-! ## Comments -/

/-- The comments that document a node from the line above. -/
theorem mem_docsAbove {n m : Node} {seen : List (Nat × Nat)} {comments : List Node}
    (h : m ∈ docsAbove n seen comments) : m ∈ comments ∧ m.isDocAbove n = true := by
  induction comments generalizing seen with
  | nil => cases h
  | cons comment rest ih =>
    rw [docsAbove] at h
    split at h
    · rename_i hdoc
      rcases List.mem_cons.mp h with rfl | h
      · exact ⟨List.mem_cons_self, (Bool.and_eq_true_iff.mp hdoc).2⟩
      · exact ⟨List.mem_cons_of_mem _ (ih h).1, (ih h).2⟩
    · exact ⟨List.mem_cons_of_mem _ (ih h).1, (ih h).2⟩

/-- The comments that may hold a type tag for a node are nodes of its tree. -/
theorem candidates_mem_preorder {c : Cursor} (hc : c ∈ s.root.cursors) {m : Node}
    (hm : m ∈ s.candidates c) : m ∈ s.root.preorder := by
  rcases List.mem_append.mp hm with hlead | habove
  · exact leadingComments_mem_preorder hc hlead
  · have hcomment := (mem_docsAbove habove).1
    rw [s.comments_eq] at hcomment
    exact (List.mem_filter.mp hcomment).1

/-- A comment that may hold a type tag for a node leads it or ends on the line above. -/
theorem leads_or_above {c : Cursor} {m : Node} (hm : m ∈ s.candidates c) :
    m ∈ c.leadingComments ∨ m.stop.row + 1 = c.node.start.row := by
  rcases List.mem_append.mp hm with hlead | habove
  · exact .inl hlead
  · right
    have hdoc := (mem_docsAbove habove).2
    simp only [Node.isDocAbove, Bool.and_eq_true, beq_iff_eq] at hdoc
    exact hdoc.1.1

/-! ## The supply of a declarator -/

theorem supply?_of_inlinePlace? {c : Cursor} {o : Occurrence}
    (h : s.inlinePlace? c.node = some o) : s.supply? c = some (.inline o) := by
  rw [supply?, h]
  rfl

theorem inlinePlace?_of_supply? {c : Cursor} {o : Occurrence}
    (h : s.supply? c = some (.inline o)) : s.inlinePlace? c.node = some o := by
  unfold supply? at h
  cases hplace : s.inlinePlace? c.node with
  | some place =>
    rw [hplace] at h
    cases h
    rfl
  | none =>
    rw [hplace] at h
    simp at h

theorem candidate_of_supply? {c : Cursor} {m : Node} (h : s.supply? c = some (.tag m)) :
    m ∈ s.candidates c := by
  unfold supply? at h
  cases hplace : s.inlinePlace? c.node with
  | some place =>
    rw [hplace] at h
    cases h
  | none =>
    rw [hplace] at h
    obtain ⟨m', hfind, hm⟩ := Option.map_eq_some_iff.mp h
    cases hm
    exact List.mem_of_find?_eq_some hfind

/-- The annotation of a declarator is the type that its supply holds. -/
theorem annotation?_eq_supply (s : Source) (c : Cursor) :
    s.annotation? c = ((s.supply? c).bind Supply.type?).map .ofText := by
  rw [annotation?, inlineType?_eq, tagType?, findSome?_eq_bind_find?, supply?]
  cases hplace : s.inlinePlace? c.node with
  | some o =>
    obtain ⟨k, rest, -, hfound, -⟩ := Pattern.exists_of_head?_occurrencesFrom hplace
    obtain ⟨-, -, type, -, -, -, -, -, hparts⟩ := Form.inline_eq_some.mp hfound
    simp [Supply.type?, hparts]
  | none =>
    rw [Option.bind_none, Option.none_or, Option.map_none, Option.none_or, Option.bind_map]
    simp only [Function.comp_def, Supply.type?]

end Source

end CommentTypes
