import CommentTypes.Text.Loose

/-!
# Texts in ascending order

Texts are ordered by their codes, and different texts have different codes (`eq_of_codes_eq`). So of
two different texts one comes first (`ascends_of_atMost`), and sorting brings texts into this order
(`pairwise_mergeSort_atMost`).
-/

namespace CommentTypes.Text

theorem Point.eq_of_code_eq {p q : Point} (h : p.code = q.code) : p = q := by
  -- no character has the code of a half
  have hapart : ∀ (c : Char) (half : Half), c.toNat ≠ half.code := by
    intro c half
    have hc : c.toNat < 0xd800 ∨ 0xdfff < c.toNat ∧ c.toNat < 0x110000 := c.valid
    have hhalf := half.index.isLt
    rw [Half.code]
    omega
  cases p with
  | char c =>
    cases q with
    | char d => exact congrArg _ (Char.ext (UInt32.toNat_inj.mp h))
    | half half => exact absurd h (hapart c half)
  | half half =>
    cases q with
    | char d => exact absurd h.symm (hapart d half)
    | half half' =>
      have hindex : half.index.val = half'.index.val := Nat.add_left_cancel h
      cases half
      cases half'
      exact congrArg (fun i => Point.half ⟨i⟩) (Fin.ext hindex)

namespace Loose

variable {a b c : Loose}

/-- A text is known by its codes. -/
theorem eq_of_codes_eq (h : a.codes = b.codes) : a = b := by
  have hpoints : a.points = b.points :=
    (List.map_inj_right fun _ _ => Point.eq_of_code_eq).mp h
  rw [← ofPoints_points a, hpoints, ofPoints_points]

/-- The texts are equal, or the first one has a smaller code where their codes first differ or ends
there. -/
def Ascends (a b : Loose) : Prop :=
  a = b ∨ List.Lex (· < ·) a.codes b.codes

theorem atMost_iff : atMost a b = true ↔ ¬ List.Lex (· < ·) b.codes a.codes := by
  rw [atMost, Bool.not_eq_true', ← Bool.not_eq_true, List.lex_eq_true_iff_lex]
  simp only [decide_eq_true_iff]

theorem atMost_trans (hab : atMost a b = true) (hbc : atMost b c = true) : atMost a c = true :=
  atMost_iff.mpr (List.le_trans (atMost_iff.mp hab) (atMost_iff.mp hbc))

theorem atMost_total (a b : Loose) : (atMost a b || atMost b a) = true := by
  rw [Bool.or_eq_true, atMost_iff, atMost_iff]
  exact List.le_total a.codes b.codes

theorem ascends_of_atMost (h : atMost a b = true) : a.Ascends b := by
  by_cases hlt : List.Lex (· < ·) a.codes b.codes
  · exact .inr hlt
  · exact .inl (eq_of_codes_eq (List.le_antisymm (atMost_iff.mp h) hlt))

theorem pairwise_mergeSort_atMost (texts : List Loose) :
    (texts.mergeSort atMost).Pairwise Ascends := by
  have hsorted : (texts.mergeSort atMost).Pairwise fun a b => atMost a b = true := by
    refine List.pairwise_mergeSort (fun a b c hab hbc => ?_) atMost_total texts
    exact atMost_trans hab hbc
  exact hsorted.imp ascends_of_atMost

end Loose

end CommentTypes.Text
