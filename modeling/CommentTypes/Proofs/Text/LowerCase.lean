import CommentTypes.Annotation.Lookup
import CommentTypes.Proofs.Text.Utf8

/-!
# Lower case and complex types

ASCII characters that are no letters have no case. No other character is lower-cased to one of them,
and they stay as they are (`mem_lowerChar`), so a text has them where it has them in lower case
(`mem_lower`). The characters that make a type complex are of this kind: a type is complex as it was
written exactly if it is complex in lower case (`isComplex_lower`).
-/

namespace CommentTypes

open Text.Utf8

namespace Text

/-- The small forms in the runs are no ASCII characters, but for the letter of the Kelvin sign. -/
theorem small_of_mem_caseRuns {r : CaseRun} (h : r ∈ caseRuns) :
    0x80 ≤ r.small ∨ r.small = 0x6b ∧ r.first = r.last := by
  have hall : caseRuns.all (fun r => decide (0x80 ≤ r.small ∨ r.small = 0x6b ∧ r.first = r.last)) =
      true := by decide +kernel
  exact of_decide_eq_true (List.all_eq_true.mp hall r h)

/-- A character without a case. -/
def IsCaseless (c : Char) : Prop :=
  IsPlain c ∧ c.isAlpha = false

instance (c : Char) : Decidable (IsCaseless c) :=
  inferInstanceAs (Decidable (IsPlain c ∧ c.isAlpha = false))

theorem IsCaseless.ne {x y : Char} (hx : IsCaseless x) (hy : ¬ IsCaseless y) : x ≠ y := by
  rintro rfl
  exact hy hx

theorem toLower_of_ascii {c : Char} (h : c.toNat < 0x80) :
    c.toLower = c ∨ ¬ IsCaseless c ∧ ¬ IsCaseless c.toLower := by
  have hall : (List.range 0x80).all (fun n =>
      decide ((Char.ofNat n).toLower = Char.ofNat n ∨
        ¬ IsCaseless (Char.ofNat n) ∧ ¬ IsCaseless (Char.ofNat n).toLower)) = true := by
    decide +kernel
  have hc := of_decide_eq_true (List.all_eq_true.mp hall c.toNat (List.mem_range.mpr h))
  rwa [Char.ofNat_toNat] at hc

/-- A character without a case is the small form of itself alone. -/
theorem mem_lowerChar {x : Char} (hx : IsCaseless x) {c : Char} : x ∈ lowerChar c ↔ x = c := by
  unfold lowerChar
  split
  · rename_i hascii
    rw [List.mem_singleton]
    rcases toLower_of_ascii hascii with hc | ⟨hc, hsmall⟩
    · rw [hc]
    · exact iff_of_false (hx.ne hsmall) (hx.ne hc)
  · rename_i hascii
    refine iff_of_false ?_ (hx.ne fun hc => hascii hc.1.2)
    split
    · simp only [List.mem_cons, List.not_mem_nil, or_false, not_or]
      exact ⟨hx.ne (by decide), hx.ne (by decide)⟩
    · split
      · rename_i r hr
        have hcovers := List.find?_some hr
        simp only [CaseRun.covers, Bool.and_eq_true, decide_eq_true_eq] at hcovers
        rw [List.mem_singleton]
        rcases small_of_mem_caseRuns (List.mem_of_find?_eq_some hr) with hs | ⟨hs, hone⟩
        · exact hx.ne fun hc => not_plain_ofNat (by omega) hc.1
        · have hk : r.small + (c.toNat - r.first) = 0x6b := by omega
          rw [hk]
          exact hx.ne (by decide)
      · rw [List.mem_singleton]
        exact hx.ne fun hc => hascii hc.1.2

theorem mem_lowerFrom {x : Char} (hx : IsCaseless x) (before cs : List Char) :
    x ∈ lowerFrom before cs ↔ x ∈ cs := by
  induction cs generalizing before with
  | nil => rfl
  | cons c cs ih =>
    rw [lowerFrom, List.mem_append, ih, List.mem_cons]
    refine or_congr ?_ Iff.rfl
    split
    · rename_i hsigma
      rw [hsigma, List.mem_singleton]
      refine iff_of_false (hx.ne ?_) (hx.ne (by decide))
      split <;> decide
    · exact mem_lowerChar hx

/-- A text has a character without a case where it has it in lower case. -/
theorem mem_lower {x : Char} (hx : IsCaseless x) (s : String) :
    x ∈ (lower s).toList ↔ x ∈ s.toList := by
  rw [lower, String.toList_ofList, mem_lowerFrom hx]

end Text

namespace TypeName

theorem caseless_of_mem_complexChars {c : Char} (h : c ∈ complexChars) : Text.IsCaseless c := by
  have hall : complexChars.all (fun c => decide (Text.IsCaseless c)) = true := by decide
  exact of_decide_eq_true (List.all_eq_true.mp hall c h)

/-- A type is as complex in lower case as it was written. -/
@[simp]
theorem isComplex_lower (t : TypeName) : isComplex (Text.lower t) = isComplex t := by
  rw [isComplex, isComplex, Bool.eq_iff_iff]
  simp only [List.any_eq_true, List.contains_iff_mem]
  refine exists_congr fun c => and_congr_left fun hc => ?_
  exact Text.mem_lower (caseless_of_mem_complexChars hc) t

end TypeName

/-- An annotation is complex if the type that it declares is. -/
theorem Source.complex_of_annotation? {s : Source} {c : Cursor} {a : Annotation}
    (h : s.annotation? c = some a) : a.complex = TypeName.isComplex a.declared := by
  obtain ⟨raw, -, rfl⟩ := Option.map_eq_some_iff.mp h
  exact (TypeName.isComplex_lower raw).symm

end CommentTypes
