import CommentTypes.Json.Printer
import CommentTypes.Json.Reader

/-!
# Strings in JSON

A string between quotes is read back as it was written (`readString_quoted`), and all that is
written of it can be printed in ASCII (`isPrintable_of_mem_quotedChars`). A character stands for
itself, follows a backslash, or is written by the code of one unit of sixteen bits or of two.

The reader wants a character after the digits of a unit, and looks for a second unit after the
first half of a pair. So the rest of the text matters to what is read, and the statements about
units are for a rest that is not empty: the closing quote is always left.
-/

namespace CommentTypes

namespace Text

theorem hexValue?_hexDigit {n : Nat} (h : n < 16) : hexValue? (hexDigit n) = some n := by
  have hall : ∀ n < 16, hexValue? (hexDigit n) = some n := by decide
  exact hall n h

theorem hexDigits_four (n : Nat) :
    hexDigits 4 n =
      [hexDigit (n / 16 / 16 / 16 % 16), hexDigit (n / 16 / 16 % 16), hexDigit (n / 16 % 16),
        hexDigit (n % 16)] := rfl

end Text

namespace Json

/-! ## Units of sixteen bits -/

/-- Four digits are read as the number that they write. -/
theorem hex4?_hexDigits {n : Nat} (h : n < 0x10000) (rest : List Char) :
    hex4? (Text.hexDigits 4 n ++ rest) = some (n, rest) := by
  have hsum : ((n / 16 / 16 / 16 % 16 * 16 + n / 16 / 16 % 16) * 16 + n / 16 % 16) * 16 + n % 16 =
      n := by omega
  have hdigit : ∀ m : Nat, Text.hexValue? (Text.hexDigit (m % 16)) = some (m % 16) := fun m =>
    Text.hexValue?_hexDigit (Nat.mod_lt m (by decide))
  simp [Text.hexDigits_four, hex4?, hdigit, hsum]

/-- After a backslash, the text is read as the point and a rest, wherever the string was opened. -/
def ReadsEscape (escape rest : List Char) (p : Text.Point) : Prop :=
  ∀ opening, readEscape opening ('\\' :: (escape ++ rest)) = .ok (p, rest)

/-- A unit that is not the first half of a pair is read as the point with its code. -/
theorem readsEscape_unit {n : Nat} (h : n < 0x10000) (hhigh : ¬ (0xd800 ≤ n ∧ n < 0xdc00))
    {rest : List Char} (hrest : rest ≠ []) :
    ReadsEscape ('u' :: Text.hexDigits 4 n) rest (.ofCode n) := by
  intro opening
  obtain ⟨c, cs, rfl⟩ := List.exists_cons_of_ne_nil hrest
  show readUnit ('u' :: (Text.hexDigits 4 n ++ c :: cs)) = _
  simp only [readUnit, List.tail_cons, hex4?_hexDigits h]
  rw [if_neg (by simpa using hhigh)]

/-- The two halves of a pair are read as one character. -/
theorem readsEscape_pair {m n : Nat} (hm : 0xd800 ≤ m ∧ m < 0xdc00) (hn : 0xdc00 ≤ n ∧ n < 0xe000)
    {rest : List Char} (hrest : rest ≠ []) :
    ReadsEscape ('u' :: (Text.hexDigits 4 m ++ escapedUnit n)) rest (.char (pairedChar m n)) := by
  intro opening
  show readUnit ('u' :: (Text.hexDigits 4 m ++ escapedUnit n ++ rest)) = _
  have hmore : ((Text.hexDigits 4 n ++ rest).drop 4).isEmpty = false := by
    rw [List.drop_left' (by rfl)]
    simpa using hrest
  have hm' : (decide (0xd800 ≤ m) && decide (m < 0xdc00)) = true := by simp [hm]
  have hn' : (decide (0xdc00 ≤ n) && decide (n < 0xe000)) = true := by simp [hn]
  rw [List.append_assoc]
  simp only [readUnit, List.tail_cons, hex4?_hexDigits (show m < 0x10000 by omega), escapedUnit,
    List.cons_append, hm', if_true, hmore, hex4?_hexDigits (show n < 0x10000 by omega), hn']
  rfl

/-! ## Characters -/

theorem not_surrogate (c : Char) : ¬ (0xd800 ≤ c.toNat ∧ c.toNat < 0xe000) := by
  have h : c.toNat < 0xd800 ∨ 0xdfff < c.toNat ∧ c.toNat < 0x110000 := c.valid
  omega

theorem ofCode_toNat (c : Char) : Text.Point.ofCode c.toNat = .char c := by
  rw [Text.Point.ofCode, dif_neg (not_surrogate c), Char.ofNat_toNat]

/-- The character that the two units of a character beyond the first plane write. -/
theorem pairedChar_halves {c : Char} (h : 0x10000 ≤ c.toNat) :
    pairedChar (0xd800 + (c.toNat - 0x10000) / 0x400) (0xdc00 + (c.toNat - 0x10000) % 0x400) =
      c := by
  have hsum : 0x10000 + (0xd800 + (c.toNat - 0x10000) / 0x400 - 0xd800) * 0x400 +
      (0xdc00 + (c.toNat - 0x10000) % 0x400 - 0xdc00) = c.toNat := by omega
  rw [pairedChar, hsum, Char.ofNat_toNat]

/-- A character is written as itself, where it needs no escape, or as an escape that is read as the
character. -/
theorem escapedChar_cases (c : Char) {rest : List Char} (hrest : rest ≠ []) :
    (escapedChar c = [c] ∧ c ≠ '"' ∧ c ≠ '\\' ∧ 0x20 ≤ c.toNat) ∨
    ∃ escape, escapedChar c = '\\' :: escape ∧ ReadsEscape escape rest (.char c) := by
  unfold escapedChar
  split
  · rename_i h
    refine .inr ⟨[c], rfl, fun opening => ?_⟩
    rcases (by simpa using h : c = '"' ∨ c = '\\') with rfl | rfl <;> rfl
  rename_i hplain
  split
  · rename_i h
    exact .inr ⟨['n'], rfl, fun opening => h ▸ rfl⟩
  split
  · rename_i h
    exact .inr ⟨['r'], rfl, fun opening => h ▸ rfl⟩
  split
  · rename_i h
    exact .inr ⟨['t'], rfl, fun opening => h ▸ rfl⟩
  split
  · rename_i h
    exact .inr ⟨['b'], rfl, fun opening => h ▸ rfl⟩
  split
  · rename_i h
    exact .inr ⟨['f'], rfl, fun opening => h ▸ rfl⟩
  split
  · rename_i h
    simp only [Bool.or_eq_true, decide_eq_true_eq, not_or] at hplain
    simp only [Bool.and_eq_true, decide_eq_true_eq] at h
    exact .inl ⟨rfl, hplain.1, hplain.2, h.1⟩
  have hsurrogate := not_surrogate c
  split
  · rename_i h
    refine .inr ⟨'u' :: Text.hexDigits 4 c.toNat, rfl, ?_⟩
    rw [← ofCode_toNat]
    exact readsEscape_unit h (by omega) hrest
  · rename_i h
    have hc : c.toNat < 0xd800 ∨ 0xdfff < c.toNat ∧ c.toNat < 0x110000 := c.valid
    refine .inr ⟨_, List.cons_append, ?_⟩
    have hpair := readsEscape_pair (m := 0xd800 + (c.toNat - 0x10000) / 0x400)
      (n := 0xdc00 + (c.toNat - 0x10000) % 0x400) (by omega) (by omega) hrest
    rwa [pairedChar_halves (by omega)] at hpair

/-! ## Strings -/

/-- A character in front adds itself to what is read of a string. -/
theorem readString_escapedChar (opening : List Char) (c : Char) {budget : Nat} {rest : List Char}
    {ps : List Text.Point} {left : List Char} (hrest : rest ≠ [])
    (h : readString opening budget rest = .ok (ps, left)) :
    readString opening (budget + 1) (escapedChar c ++ rest) = .ok (.char c :: ps, left) := by
  rcases escapedChar_cases c hrest with ⟨hself, hquote, hslash, hcontrol⟩ | ⟨escape, hescape, hreads⟩
  · rw [hself, List.singleton_append, readString, if_neg hquote, if_neg hslash,
      if_neg (Nat.not_lt.mpr hcontrol), h]
    rfl
  · rw [hescape, List.cons_append, readString, if_neg (by decide), if_pos rfl, hreads opening]
    show (readString opening budget rest >>= _) = _
    rw [h]
    rfl

/-- The characters of a string are read up to the quote that closes it. -/
theorem readString_quoted (opening : List Char) (cs rest : List Char) {budget : Nat}
    (h : cs.length < budget) :
    readString opening budget (cs.flatMap escapedChar ++ '"' :: rest) =
      .ok (cs.map .char, rest) := by
  induction cs generalizing budget with
  | nil =>
    obtain ⟨budget, rfl⟩ := Nat.exists_eq_add_of_lt h
    rfl
  | cons c cs ih =>
    obtain ⟨budget, rfl⟩ := Nat.exists_eq_add_of_lt h
    rw [List.flatMap_cons, List.append_assoc]
    exact readString_escapedChar opening c (by simp) (ih (by rw [List.length_cons]; omega))

theorem quotedChars_string (s : String) :
    quotedChars s = '"' :: (s.toList.flatMap escapedChar ++ ['"']) := by
  rw [quotedChars, Text.Loose.points, List.flatMap_map]
  rfl

theorem escapedChar_ne_nil (c : Char) : escapedChar c ≠ [] := by
  rcases escapedChar_cases c (List.cons_ne_nil '"' []) with ⟨h, -⟩ | ⟨escape, h, -⟩
  · simp [h]
  · simp [h]

/-- No character is written as nothing. -/
theorem length_le_length_escaped (cs : List Char) :
    cs.length ≤ (cs.flatMap escapedChar).length := by
  induction cs with
  | nil => exact Nat.le_refl 0
  | cons c cs ih =>
    have hc := List.length_pos_iff.mpr (escapedChar_ne_nil c)
    rw [List.flatMap_cons, List.length_append, List.length_cons]
    omega

/-! ## Printable characters -/

/-- A character of ASCII that is not a control character. -/
def IsPrintable (c : Char) : Prop :=
  0x20 ≤ c.toNat ∧ c.toNat < 0x7f

instance (c : Char) : Decidable (IsPrintable c) :=
  inferInstanceAs (Decidable (_ ∧ _))

theorem isPrintable_hexDigit {n : Nat} (h : n < 16) : IsPrintable (Text.hexDigit n) := by
  have hall : ∀ n < 16, IsPrintable (Text.hexDigit n) := by decide
  exact hall n h

theorem isPrintable_of_mem_escapedUnit {n : Nat} {x : Char} (h : x ∈ escapedUnit n) :
    IsPrintable x := by
  have hdigit : ∀ m : Nat, IsPrintable (Text.hexDigit (m % 16)) := fun m =>
    isPrintable_hexDigit (Nat.mod_lt m (by decide))
  rw [escapedUnit, Text.hexDigits_four] at h
  simp only [List.mem_cons, List.not_mem_nil, or_false] at h
  rcases h with rfl | rfl | rfl | rfl | rfl | rfl
  · decide
  · decide
  all_goals exact hdigit _

theorem isPrintable_of_mem_escapedChar {c x : Char} (h : x ∈ escapedChar c) : IsPrintable x := by
  have hpair : ∀ {a b : Char}, IsPrintable a → IsPrintable b → x ∈ [a, b] → IsPrintable x := by
    intro a b ha hb hx
    rcases List.mem_cons.mp hx with rfl | hx
    · exact ha
    · exact List.mem_singleton.mp hx ▸ hb
  unfold escapedChar at h
  split at h
  · rename_i hc
    refine hpair (by decide) ?_ h
    rcases (by simpa using hc : c = '"' ∨ c = '\\') with rfl | rfl <;> decide
  iterate 5
    split at h
    · exact hpair (by decide) (by decide) h
  split at h
  · rename_i hc
    rw [List.mem_singleton.mp h]
    simpa [IsPrintable] using hc
  split at h
  · exact isPrintable_of_mem_escapedUnit h
  · rcases List.mem_append.mp h with h | h
    · exact isPrintable_of_mem_escapedUnit h
    · exact isPrintable_of_mem_escapedUnit h

theorem isPrintable_of_mem_quotedChars {s : String} {x : Char} (h : x ∈ quotedChars s) :
    IsPrintable x := by
  rw [quotedChars_string] at h
  rcases List.mem_cons.mp h with rfl | h
  · decide
  rcases List.mem_append.mp h with h | h
  · obtain ⟨c, -, hc⟩ := List.mem_flatMap.mp h
    exact isPrintable_of_mem_escapedChar hc
  · rw [List.mem_singleton.mp h]
    decide

end Json

end CommentTypes
