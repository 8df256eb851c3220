import CommentTypes.Proofs.Annotation.Parts
import CommentTypes.Proofs.Annotation.Scan

/-!
# Types with marks around them

A type with marks around it is recognised exactly where it is written (`marked_eq_some_iff`): the
marks in their order, and the type among them with blanks around it. No blank is a character of a
type (`not_isBlank_of_isTypeChar`), so what is written can be read in one way only, and a search
reads the places at which it is written (`reads_marked`).
-/

namespace CommentTypes

namespace Text

/-- The code points of the blanks. -/
def blankPoints : List Nat :=
  List.range' 0x09 5 ++ List.range' 0x1c 5 ++ [0x85, 0xa0, 0x1680] ++ List.range' 0x2000 11 ++
    [0x2028, 0x2029, 0x202f, 0x205f, 0x3000]

theorem toNat_mem_blankPoints {c : Char} (h : isBlank c = true) : c.toNat ∈ blankPoints := by
  simp only [isBlank, Bool.or_eq_true, Bool.and_eq_true, decide_eq_true_eq, beq_iff_eq] at h
  simp only [blankPoints, List.mem_append, List.mem_range'_1, List.mem_cons, List.not_mem_nil,
    or_false]
  omega

end Text

namespace Form

/-- No blank is a character of a type. -/
theorem not_isBlank_of_isTypeChar {c : Char} (h : isTypeChar c = true) :
    Text.isBlank c = false := by
  rw [← Bool.not_eq_true]
  intro hb
  have hnone : Text.blankPoints.all (fun n => !isTypeChar (Char.ofNat n)) = true := by
    decide +kernel
  have hc := List.all_eq_true.mp hnone _ (Text.toNat_mem_blankPoints hb)
  rw [Char.ofNat_toNat, h] at hc
  cases hc

/-- A type with marks around it as it is written, with blanks between the parts. -/
def IsMarked (opening mark closing : List Char) (type : String) (cs : List Char) : Prop :=
  ∃ a b d : List Char, (∀ c ∈ a, Text.isBlank c = true) ∧ (∀ c ∈ b, Text.isBlank c = true) ∧
    (∀ c ∈ d, Text.isBlank c = true) ∧ type.toList ≠ [] ∧
    (∀ c ∈ type.toList, isTypeChar c = true) ∧
    cs = opening ++ (a ++ mark ++ (b ++ type.toList ++ d)) ++ closing

section Runs

variable {p : Char → Bool} {xs ys : List Char} {c : Char}

theorem dropWhile_append_cons (h : ∀ x ∈ xs, p x = true) (hc : p c = false) :
    (xs ++ c :: ys).dropWhile p = c :: ys := by
  rw [List.dropWhile_append_of_pos h, List.dropWhile_cons_of_neg (by simp [hc])]

theorem takeWhile_append_cons (h : ∀ x ∈ xs, p x = true) (hc : p c = false) :
    (xs ++ c :: ys).takeWhile p = xs := by
  rw [List.takeWhile_append_of_pos h, List.takeWhile_cons_of_neg (by simp [hc]), List.append_nil]

theorem skipBlanks_eq {rest : List Char} (h : skipBlanks xs = rest) :
    ∃ blanks, (∀ c ∈ blanks, Text.isBlank c = true) ∧ xs = blanks ++ rest := by
  refine ⟨xs.takeWhile Text.isBlank, List.all_eq_true.mp List.all_takeWhile, ?_⟩
  rw [← h, skipBlanks, List.takeWhile_append_dropWhile]

theorem run?_eq_some {run : String} {rest : List Char} (h : run? p xs = some (run, rest)) :
    run.toList ≠ [] ∧ (∀ c ∈ run.toList, p c = true) ∧ xs = run.toList ++ rest := by
  unfold run? at h
  split at h
  · cases h
  · rename_i hne
    cases h
    rw [String.toList_ofList]
    exact ⟨hne, List.all_eq_true.mp List.all_takeWhile, List.takeWhile_append_dropWhile.symm⟩

theorem run?_append_cons {run : String} (hne : run.toList ≠ [])
    (h : ∀ x ∈ run.toList, p x = true) (hc : p c = false) :
    run? p (run.toList ++ c :: ys) = some (run, c :: ys) := by
  unfold run?
  rw [takeWhile_append_cons h hc, dropWhile_append_cons h hc]
  split
  · rename_i hnil
    exact absurd hnil hne
  · rw [String.ofList_toList]

end Runs

/-- After a type and some blanks, a character that is not of a type comes first. -/
theorem exists_cons_of_blanks {blanks : List Char} (h : ∀ c ∈ blanks, Text.isBlank c = true)
    {e : Char} (he : isTypeChar e = false) (rest : List Char) :
    ∃ c ys, blanks ++ e :: rest = c :: ys ∧ isTypeChar c = false := by
  cases blanks with
  | nil => exact ⟨e, rest, rfl, he⟩
  | cons c blanks =>
    refine ⟨c, blanks ++ e :: rest, rfl, Bool.eq_false_iff.mpr fun hc => ?_⟩
    have hblank := h c List.mem_cons_self
    rw [not_isBlank_of_isTypeChar hc] at hblank
    cases hblank

section Marks

variable {opening mark closing : List Char} {m e : Char}

theorem marked_of_isMarked (hm : Text.isBlank m = false) (he : Text.isBlank e = false)
    (he' : isTypeChar e = false) {type : String} {written : List Char}
    (h : IsMarked opening (m :: mark) (e :: closing) type written) (rest : List Char) :
    marked opening (m :: mark) (e :: closing) (written ++ rest) = some ([type], rest) := by
  obtain ⟨a, b, d, ha, hb, hd, hne, htype, rfl⟩ := h
  -- what is left after each of the parts
  let typed := d ++ e :: (closing ++ rest)
  let begun := b ++ (type.toList ++ typed)
  have hmark : skipBlanks (a ++ m :: (mark ++ begun)) = m :: (mark ++ begun) :=
    dropWhile_append_cons ha hm
  have hbegun : skipBlanks begun = type.toList ++ typed := by
    obtain ⟨t, ts, ht⟩ := List.exists_cons_of_ne_nil hne
    have hblank := not_isBlank_of_isTypeChar (htype t (by rw [ht]; exact List.mem_cons_self))
    simp only [begun, ht, List.cons_append]
    exact dropWhile_append_cons hb hblank
  have htyped : run? isTypeChar (type.toList ++ typed) = some (type, typed) := by
    obtain ⟨c, ys, hcys, hc⟩ := exists_cons_of_blanks hd he' (closing ++ rest)
    simp only [typed, hcys]
    exact run?_append_cons hne htype hc
  have hclosing : skipBlanks typed = e :: (closing ++ rest) := dropWhile_append_cons hd he
  refine marked_eq_some.mpr ⟨a ++ m :: (mark ++ begun), begun, type, typed, ?_,
    after?_eq_some.mpr hmark, hbegun ▸ htyped, after?_eq_some.mpr hclosing, rfl⟩
  exact after?_eq_some.mpr (by simp [begun, typed])

theorem isMarked_of_marked {cs rest : List Char} {parts : List String}
    (h : marked opening mark closing cs = some (parts, rest)) :
    ∃ type written, IsMarked opening mark closing type written ∧ cs = written ++ rest ∧
      parts = [type] := by
  obtain ⟨opened, begun, type, typed, ho, hm, ht, hr, rfl⟩ := marked_eq_some.mp h
  obtain ⟨a, ha, rfl⟩ := skipBlanks_eq (after?_eq_some.mp hm)
  obtain ⟨hne, htype, htyped⟩ := run?_eq_some ht
  obtain ⟨b, hb, rfl⟩ := skipBlanks_eq htyped
  obtain ⟨d, hd, rfl⟩ := skipBlanks_eq (after?_eq_some.mp hr)
  refine ⟨type, _, ⟨a, b, d, ha, hb, hd, hne, htype, rfl⟩, ?_, rfl⟩
  rw [after?_eq_some.mp ho]
  simp

/-- A type with marks around it is recognised exactly where it is written. -/
theorem marked_eq_some_iff (hm : Text.isBlank m = false) (he : Text.isBlank e = false)
    (he' : isTypeChar e = false) {cs rest : List Char} {parts : List String} :
    marked opening (m :: mark) (e :: closing) cs = some (parts, rest) ↔
      ∃ type written, IsMarked opening (m :: mark) (e :: closing) type written ∧
        cs = written ++ rest ∧ parts = [type] := by
  refine ⟨isMarked_of_marked, ?_⟩
  rintro ⟨type, written, hwritten, rfl, rfl⟩
  exact marked_of_isMarked hm he he' hwritten rest

/-- A form with an end of its own, whatever follows. -/
abbrev ended {α : Type} (form : α → List Char → Prop) : α → List Char → List Char → Prop :=
  fun a written _ => form a written

/-- A search reads the places at which a type is written with marks around it. -/
theorem reads_marked (hm : Text.isBlank m = false) (he : Text.isBlank e = false)
    (he' : isTypeChar e = false) :
    (marked opening (m :: mark) (e :: closing)).Reads
      (ended (IsMarked opening (m :: mark) (e :: closing))) fun type => [type] where
  recognises _ _ _ := marked_eq_some_iff hm he he'
  nonempty type written rest h := by
    obtain ⟨_, _, _, -, -, -, -, -, rfl⟩ := h
    simp
  unique a b written written' rest rest' h h' heq := by
    have hread := marked_of_isMarked hm he he' h rest
    rw [heq, marked_of_isMarked hm he he' h' rest'] at hread
    cases hread
    rfl

end Marks

end Form

end CommentTypes
