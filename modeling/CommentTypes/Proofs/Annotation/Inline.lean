import CommentTypes.Proofs.Annotation.Marked

/-!
# The inline form as it is written

The inline form is recognised exactly where it is written (`inline_eq_some_iff`): marks at both
ends, and between them a colon and a type with blanks around. There is no slash between those at its
ends, so a place of the form that starts before a slash does not reach beyond it
(`inline_of_slash`), and the first place in a text stays the first one where the text goes on
(`inline_first_unique`).
-/

namespace CommentTypes

namespace Form

/-- The inline form of a type as it is written, with blanks between its parts. -/
def IsInline (type : String) (cs : List Char) : Prop :=
  ∃ a b d : List Char, (∀ c ∈ a, Text.isBlank c = true) ∧ (∀ c ∈ b, Text.isBlank c = true) ∧
    (∀ c ∈ d, Text.isBlank c = true) ∧ type.toList ≠ [] ∧
    (∀ c ∈ type.toList, isTypeChar c = true) ∧
    cs = ['/', '*'] ++ (a ++ [':'] ++ (b ++ type.toList ++ d)) ++ ['*', '/']

theorem inline_of_isInline {type : String} {written : List Char} (h : IsInline type written)
    (rest : List Char) : inline (written ++ rest) = some ([type], rest) :=
  marked_of_isMarked (by decide) (by decide) (by decide +kernel) h rest

/-- The inline form is recognised exactly where it is written. -/
theorem inline_eq_some_iff {cs rest : List Char} {parts : List String} :
    inline cs = some (parts, rest) ↔
      ∃ type written, IsInline type written ∧ cs = written ++ rest ∧ parts = [type] :=
  marked_eq_some_iff (by decide) (by decide) (by decide +kernel)

/-- The written form starts and ends with a slash, and there is none between. -/
theorem IsInline.exists_inner {type : String} {cs : List Char} (h : IsInline type cs) :
    ∃ inner, cs = '/' :: (inner ++ ['/']) ∧ '/' ∉ inner := by
  obtain ⟨a, b, d, ha, hb, hd, -, htype, rfl⟩ := h
  have hblank : ∀ cs : List Char, (∀ c ∈ cs, Text.isBlank c = true) → '/' ∉ cs := fun cs hcs hmem =>
    absurd (hcs '/' hmem) (by decide)
  have hslash : '/' ∉ type.toList := fun hmem => absurd (htype '/' hmem) (by decide +kernel)
  refine ⟨'*' :: (a ++ [':'] ++ (b ++ type.toList ++ d)) ++ ['*'], by simp, ?_⟩
  simp [hblank a ha, hblank b hb, hblank d hd, hslash]

/-- Where the form starts before a slash of a text, it ends in the text. -/
theorem inline_of_slash {cs more rest : List Char} {parts : List String}
    (h : inline (cs ++ more) = some (parts, rest)) {k : Nat} (hk : 0 < k)
    (hslash : cs[k]? = some '/') : ∃ rest', inline cs = some (parts, rest') := by
  obtain ⟨type, written, hwritten, htext, rfl⟩ := inline_eq_some_iff.mp h
  rcases Nat.lt_or_ge cs.length written.length with hlt | hle
  · -- the slash would stand between the two at the ends
    exfalso
    obtain ⟨u, rfl⟩ : cs <+: written :=
      List.prefix_of_prefix_length_le (List.prefix_append ..) ⟨rest, htext.symm⟩
        (Nat.le_of_lt hlt)
    obtain ⟨inner, hinner, hnone⟩ := hwritten.exists_inner
    obtain ⟨hkcs, -⟩ := List.getElem?_eq_some_iff.mp hslash
    have hlength := congrArg List.length hinner
    simp only [List.length_append, List.length_cons, List.length_nil] at hlength hlt
    obtain ⟨j, rfl⟩ : ∃ j, k = j + 1 := ⟨k - 1, by omega⟩
    have hget' : (cs ++ u)[j + 1]? = some '/' := by
      rw [List.getElem?_append_left hkcs, hslash]
    rw [hinner, List.getElem?_cons_succ, List.getElem?_append_left (by omega)] at hget'
    exact hnone (List.mem_of_getElem? hget')
  · obtain ⟨rest', rfl⟩ : written <+: cs :=
      List.prefix_of_prefix_length_le ⟨rest, htext.symm⟩ (List.prefix_append ..) hle
    exact ⟨rest', inline_of_isInline hwritten rest'⟩

/-- The first place of the form in a text is the first one also where the text goes on. -/
theorem inline_first_unique {own trail rest rest' : List Char} {parts parts' : List String}
    {k j : Nat} (hk : inline (own.drop k) = some (parts, rest))
    (hfirst : ∀ i < k, inline (own.drop i) = none)
    (hj : inline (own.drop j ++ trail) = some (parts', rest'))
    (hfirst' : ∀ i < j, inline (own.drop i ++ trail) = none) :
    j = k ∧ parts' = parts ∧ rest' = rest ++ trail := by
  have hmore := inline_append hk trail
  rcases Nat.lt_trichotomy j k with hlt | rfl | hgt
  · -- the form at `j` ends before the mark at `k` does
    exfalso
    have hslash : (own.drop j)[k - j]? = some '/' := by
      obtain ⟨type, written, hwritten, htext, -⟩ := inline_eq_some_iff.mp hk
      obtain ⟨inner, rfl, -⟩ := hwritten.exists_inner
      rw [List.getElem?_drop, Nat.add_sub_cancel' (Nat.le_of_lt hlt), ← Nat.add_zero k,
        ← List.getElem?_drop, htext]
      rfl
    obtain ⟨r, hr⟩ := inline_of_slash hj (by omega) hslash
    rw [hfirst j hlt] at hr
    cases hr
  · rw [hj] at hmore
    cases hmore
    exact ⟨rfl, rfl, rfl⟩
  · rw [hfirst' k hgt] at hmore
    cases hmore

end Form

end CommentTypes
