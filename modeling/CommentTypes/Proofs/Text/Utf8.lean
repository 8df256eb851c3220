import CommentTypes.Text.Utf8

/-!
# Reading back what was written

The bytes of a text are read as that text (`decode_encode`) and without a flaw
(`decodeStrict_encode`): the bytes of each character lead from the start of a character to the start
of the next (`piecesFrom_encodeChar`).

Bytes below `0x80` stand for themselves only. So a word of plain characters that is shown for any
bytes is spelled in them (`infix_of_decode`), and one that is spelled in the bytes of a text stands
in the text (`infix_of_encode`), also where the bytes begin or end inside a character.
-/

namespace CommentTypes.Text.Utf8

@[simp] theorem encode_nil : encode [] = [] := rfl

@[simp]
theorem encode_cons (c : Char) (cs : List Char) :
    encode (c :: cs) = String.utf8EncodeChar c ++ encode cs := rfl

@[simp]
theorem encode_append (xs ys : List Char) : encode (xs ++ ys) = encode xs ++ encode ys :=
  List.flatMap_append

theorem toNat_ofNat {n : Nat} (h : n < 256) : (UInt8.ofNat n).toNat = n :=
  UInt8.toNat_ofNat_of_lt' h

/-! ## One byte -/

theorem piecesFrom_cons (state : Option Pending) (b : UInt8) (bytes : List UInt8) :
    piecesFrom state (b :: bytes) = (step state b).1 ++ piecesFrom (step state b).2 bytes := by
  cases state <;> rfl

section

variable {p : Pending} {b : UInt8} {n : Nat}

/-- A byte within the bounds goes on with a character that owes more. -/
theorem piecesFrom_more (hb : b.toNat = n) (hlow : p.low ≤ n) (hhigh : n ≤ p.high)
    (ho : p.owed ≠ 1) (bytes : List UInt8) :
    piecesFrom (some p) (b :: bytes) =
      piecesFrom (some ⟨p.value * 64 + (n - 0x80), p.owed - 1, 0x80, 0xbf, p.read + 1⟩) bytes := by
  simp only [piecesFrom_cons, step, hb, hlow, hhigh, ho, and_self, if_true, if_false,
    List.nil_append]

/-- A byte within the bounds ends a character that owes one byte. -/
theorem piecesFrom_last (hb : b.toNat = n) (hlow : p.low ≤ n) (hhigh : n ≤ p.high)
    (ho : p.owed = 1) (bytes : List UInt8) :
    piecesFrom (some p) (b :: bytes) =
      .char (Char.ofNat (p.value * 64 + (n - 0x80))) :: piecesFrom none bytes := by
  simp only [piecesFrom_cons, step, hb, hlow, hhigh, ho, and_self, if_true, List.singleton_append]

/-- Any other byte is read again as a first byte. -/
theorem piecesFrom_broken (h : ¬ (p.low ≤ b.toNat ∧ b.toNat ≤ p.high)) (bytes : List UInt8) :
    piecesFrom (some p) (b :: bytes) =
      .flaw p.read .badContinuation :: piecesFrom none (b :: bytes) := by
  simp only [piecesFrom_cons, step, h, if_false, List.cons_append]

end

theorem begin_one {n : Nat} (h : n < 0x80) :
    begin (UInt8.ofNat n) = ([.char (Char.ofNat n)], none) := by
  simp only [begin, toNat_ofNat (by omega : n < 256), h, if_true]

theorem begin_two {n : Nat} (h : 2 ≤ n) (h' : n < 32) :
    begin (UInt8.ofNat (n + 0xc0)) = ([], some ⟨n, 1, 0x80, 0xbf, 1⟩) := by
  have h1 : ¬ n + 0xc0 < 0x80 := by omega
  have h2 : ¬ n + 0xc0 < 0xc2 := by omega
  have h3 : n + 0xc0 < 0xe0 := by omega
  simp only [begin, toNat_ofNat (by omega : n + 0xc0 < 256), h1, h2, h3, if_true, if_false,
    Nat.add_sub_cancel]

theorem begin_three {n : Nat} (h : n < 16) :
    begin (UInt8.ofNat (n + 0xe0)) =
      ([], some ⟨n, 2, if n = 0 then 0xa0 else 0x80, if n = 0xd then 0x9f else 0xbf, 1⟩) := by
  have h1 : ¬ n + 0xe0 < 0x80 := by omega
  have h2 : ¬ n + 0xe0 < 0xc2 := by omega
  have h3 : ¬ n + 0xe0 < 0xe0 := by omega
  have h4 : n + 0xe0 < 0xf0 := by omega
  have h5 : n + 0xe0 = 0xe0 ↔ n = 0 := by omega
  have h6 : n + 0xe0 = 0xed ↔ n = 0xd := by omega
  simp only [begin, toNat_ofNat (by omega : n + 0xe0 < 256), h1, h2, h3, h4, h5, h6, if_true,
    if_false, Nat.add_sub_cancel]

theorem begin_four {n : Nat} (h : n < 5) :
    begin (UInt8.ofNat (n + 0xf0)) =
      ([], some ⟨n, 3, if n = 0 then 0x90 else 0x80, if n = 4 then 0x8f else 0xbf, 1⟩) := by
  have h1 : ¬ n + 0xf0 < 0x80 := by omega
  have h2 : ¬ n + 0xf0 < 0xc2 := by omega
  have h3 : ¬ n + 0xf0 < 0xe0 := by omega
  have h4 : ¬ n + 0xf0 < 0xf0 := by omega
  have h5 : n + 0xf0 < 0xf5 := by omega
  have h6 : n + 0xf0 = 0xf0 ↔ n = 0 := by omega
  have h7 : n + 0xf0 = 0xf4 ↔ n = 4 := by omega
  simp only [begin, toNat_ofNat (by omega : n + 0xf0 < 256), h1, h2, h3, h4, h5, h6, h7, if_true,
    if_false, Nat.add_sub_cancel]

/-! ## One character -/

/-- The bytes of a character are read as that character. -/
theorem piecesFrom_encodeChar (c : Char) (rest : List UInt8) :
    piecesFrom none (String.utf8EncodeChar c ++ rest) = .char c :: piecesFrom none rest := by
  have hv : c.val.toNat < 0xd800 ∨ 0xdfff < c.val.toNat ∧ c.val.toNat < 0x110000 := c.valid
  have hc : Char.ofNat c.val.toNat = c := Char.ofNat_toNat c
  unfold String.utf8EncodeChar
  generalize c.val.toNat = v at hv hc
  dsimp only
  -- the bounds on the second byte hold since the code is neither too small for its length nor a
  -- surrogate
  split
  · rw [List.singleton_append, piecesFrom_cons, step, begin_one (by omega), hc,
      List.singleton_append]
  · split
    · rw [List.cons_append, List.singleton_append, piecesFrom_cons, step,
        begin_two (by omega) (by omega), List.nil_append,
        piecesFrom_last (toNat_ofNat (by omega)) (by dsimp only; omega) (by dsimp only; omega) rfl]
      dsimp only
      rw [show v / 64 % 32 * 64 + (v % 64 + 128 - 128) = v by omega, hc]
    · split
      · rw [List.cons_append, List.cons_append, List.singleton_append, piecesFrom_cons, step,
          begin_three (by omega), List.nil_append,
          piecesFrom_more (toNat_ofNat (by omega)) (by dsimp only; split <;> omega)
            (by dsimp only; split <;> omega) (by dsimp only; omega),
          piecesFrom_last (toNat_ofNat (by omega)) (by dsimp only; omega) (by dsimp only; omega) rfl]
        dsimp only
        rw [show (v / 4096 % 16 * 64 + (v / 64 % 64 + 128 - 128)) * 64 + (v % 64 + 128 - 128) = v by
          omega, hc]
      · rw [List.cons_append, List.cons_append, List.cons_append, List.singleton_append,
          piecesFrom_cons, step, begin_four (by omega), List.nil_append,
          piecesFrom_more (toNat_ofNat (by omega)) (by dsimp only; split <;> omega)
            (by dsimp only; split <;> omega) (by dsimp only; omega),
          piecesFrom_more (toNat_ofNat (by omega)) (by dsimp only; omega) (by dsimp only; omega)
            (by dsimp only; omega),
          piecesFrom_last (toNat_ofNat (by omega)) (by dsimp only; omega) (by dsimp only; omega) rfl]
        dsimp only
        rw [show ((v / 262144 % 8 * 64 + (v / 4096 % 64 + 128 - 128)) * 64 +
          (v / 64 % 64 + 128 - 128)) * 64 + (v % 64 + 128 - 128) = v by omega, hc]

theorem pieces_encode (cs : List Char) : pieces (encode cs) = cs.map .char := by
  induction cs with
  | nil => rfl
  | cons c cs ih =>
    rw [pieces] at ih ⊢
    rw [encode_cons, piecesFrom_encodeChar, ih, List.map_cons]

/-- The bytes of a text are read as that text. -/
@[simp]
theorem decode_encode (cs : List Char) : decode (encode cs) = cs := by
  simp only [decode, pieces_encode, List.map_map]
  exact List.map_id _

theorem charsOf_map_char (bytes : List UInt8) (offset : Nat) (cs : List Char) :
    charsOf bytes offset (cs.map .char) = .ok cs := by
  induction cs generalizing offset with
  | nil => rfl
  | cons c cs ih =>
    rw [List.map_cons, charsOf, ih]
    rfl

/-- The bytes of a text have no flaw. -/
theorem decodeStrict_encode (cs : List Char) : decodeStrict (encode cs) = .ok cs := by
  rw [decodeStrict, pieces_encode, charsOf_map_char]

/-! ## Bytes below `0x80` -/

theorem encodeChar_small {c : Char} (h : c.toNat < 0x80) :
    String.utf8EncodeChar c = [UInt8.ofNat c.toNat] :=
  if_pos (Nat.le_of_lt_succ h)

/-- A character that needs several bytes has no byte below `0x80`. -/
theorem encodeChar_large {c : Char} (h : 0x80 ≤ c.toNat) {b : UInt8}
    (hb : b ∈ String.utf8EncodeChar c) : 0x80 ≤ b.toNat := by
  have hv : ¬ c.val.toNat ≤ 127 := Nat.not_le.mpr h
  unfold String.utf8EncodeChar at hb
  generalize c.val.toNat = v at hv hb
  dsimp only at hb
  rw [if_neg hv] at hb
  split at hb
  · simp only [List.mem_cons, List.not_mem_nil, or_false] at hb
    rcases hb with rfl | rfl <;> rw [toNat_ofNat (by omega)] <;> omega
  · split at hb
    · simp only [List.mem_cons, List.not_mem_nil, or_false] at hb
      rcases hb with rfl | rfl | rfl <;> rw [toNat_ofNat (by omega)] <;> omega
    · simp only [List.mem_cons, List.not_mem_nil, or_false] at hb
      rcases hb with rfl | rfl | rfl | rfl <;> rw [toNat_ofNat (by omega)] <;> omega

/-- A byte below `0x80` belongs to the character whose code it is. -/
theorem eq_of_mem_encodeChar {b : UInt8} (hb : b.toNat < 0x80) {c : Char}
    (h : b ∈ String.utf8EncodeChar c) : c.toNat = b.toNat ∧ String.utf8EncodeChar c = [b] := by
  rcases Nat.lt_or_ge c.toNat 0x80 with hs | hl
  · rw [encodeChar_small hs] at h ⊢
    obtain rfl := List.mem_singleton.mp h
    exact ⟨(toNat_ofNat (by omega)).symm, rfl⟩
  · exact absurd (encodeChar_large hl h) (Nat.not_le.mpr hb)

theorem lineFeed_mem_encode {cs : List Char} : (0x0a : UInt8) ∈ encode cs ↔ '\n' ∈ cs := by
  refine ⟨fun h => ?_, fun h => List.mem_flatMap.mpr ⟨'\n', h, by decide⟩⟩
  obtain ⟨c, hc, hb⟩ := List.mem_flatMap.mp h
  obtain rfl : c = '\n' := Char.toNat_inj.mp (eq_of_mem_encodeChar (by decide) hb).1
  exact hc

/-! ## Plain words -/

/-- A character of seven bits, other than NUL. -/
def IsPlain (c : Char) : Prop :=
  0 < c.toNat ∧ c.toNat < 0x80

instance (c : Char) : Decidable (IsPlain c) :=
  inferInstanceAs (Decidable (0 < c.toNat ∧ c.toNat < 0x80))

theorem plain_of_all {word : List Char} (h : (word.all fun c => decide (IsPlain c)) = true) :
    ∀ c ∈ word, IsPlain c :=
  fun c hc => of_decide_eq_true (List.all_eq_true.mp h c hc)

theorem not_plain_replacement : ¬ IsPlain '�' := by decide

theorem toNat_charOfNat {n : Nat} (h : n.isValidChar) : (Char.ofNat n).toNat = n := by
  rw [Char.ofNat, dif_pos h]
  rfl

theorem not_plain_ofNat {n : Nat} (h : 0x80 ≤ n) : ¬ IsPlain (Char.ofNat n) := by
  by_cases hv : n.isValidChar
  · rw [IsPlain, toNat_charOfNat hv]
    omega
  · rw [Char.ofNat, dif_neg hv]
    decide

/-- The least code that a character can have once it is begun. -/
def Pending.least (p : Pending) : Nat :=
  (p.value * 64 + (p.low - 0x80)) <<< (6 * (p.owed - 1))

/-- A first byte is shown at once, or begins a character whose code is large. -/
theorem begin_cases (b : UInt8) :
    (∃ piece, begin b = ([piece], none) ∧
      (IsPlain piece.shown → String.utf8EncodeChar piece.shown = [b])) ∨
    ∃ p, begin b = ([], some p) ∧ 0x80 ≤ p.least := by
  unfold begin
  dsimp only
  split
  · rename_i h
    have hn : (Char.ofNat b.toNat).toNat = b.toNat := toNat_charOfNat (.inl (by omega))
    refine .inl ⟨_, rfl, fun _ => ?_⟩
    rw [Piece.shown, encodeChar_small (by omega), hn, UInt8.ofNat_toNat]
  split
  · exact .inl ⟨_, rfl, fun h => absurd h not_plain_replacement⟩
  split
  · refine .inr ⟨_, rfl, ?_⟩
    simp only [Pending.least]
    omega
  split
  · refine .inr ⟨_, rfl, ?_⟩
    simp only [Pending.least]
    split <;> omega
  split
  · refine .inr ⟨_, rfl, ?_⟩
    simp only [Pending.least]
    split <;> omega
  · exact .inl ⟨_, rfl, fun h => absurd h not_plain_replacement⟩

/-- The code only gets larger on the way. -/
theorem Pending.least_le {p : Pending} {n read : Nat} (hlow : p.low ≤ n) :
    p.least ≤ (⟨p.value * 64 + (n - 0x80), p.owed - 1, 0x80, 0xbf, read⟩ : Pending).least := by
  have hle : p.value * 64 + (p.low - 0x80) ≤ p.value * 64 + (n - 0x80) := by omega
  simp only [least, Nat.sub_self, Nat.add_zero]
  generalize p.value * 64 + (p.low - 0x80) = x at hle ⊢
  generalize p.value * 64 + (n - 0x80) = y at hle ⊢
  cases p.owed - 1 with
  | zero =>
    simp only [Nat.zero_sub, Nat.mul_zero, Nat.shiftLeft_zero]
    omega
  | succ k =>
    rw [Nat.add_sub_cancel, Nat.shiftLeft_eq, Nat.shiftLeft_eq, Nat.mul_succ, Nat.pow_add,
      ← Nat.mul_assoc, Nat.mul_right_comm]
    exact Nat.mul_le_mul_right _ (Nat.mul_le_mul_right 64 hle)

/-- Once a character is begun, one that is not plain is shown, and then what follows it. -/
theorem piecesFrom_pending {p : Pending} (hp : 0x80 ≤ p.least) (bytes : List UInt8) :
    ∃ piece rest, piecesFrom (some p) bytes = piece :: pieces rest ∧ rest <:+ bytes ∧
      ¬ IsPlain piece.shown := by
  induction bytes generalizing p with
  | nil => exact ⟨_, [], rfl, List.suffix_rfl, not_plain_replacement⟩
  | cons b bytes ih =>
    by_cases hb : p.low ≤ b.toNat ∧ b.toNat ≤ p.high
    · by_cases ho : p.owed = 1
      · refine ⟨_, bytes, piecesFrom_last rfl hb.1 hb.2 ho bytes, List.suffix_cons .., ?_⟩
        simp only [Pending.least, ho, Nat.sub_self] at hp
        exact not_plain_ofNat (by omega)
      · obtain ⟨piece, rest, hr, hs, hn⟩ := ih (Nat.le_trans hp (Pending.least_le hb.1))
        exact ⟨piece, rest, (piecesFrom_more rfl hb.1 hb.2 ho bytes).trans hr,
          hs.trans (List.suffix_cons ..), hn⟩
    · exact ⟨_, b :: bytes, piecesFrom_broken hb bytes, List.suffix_rfl, not_plain_replacement⟩

/-- One character is shown at a time, and a plain one for its own byte only. -/
theorem decode_cons (b : UInt8) (bytes : List UInt8) :
    ∃ c rest, decode (b :: bytes) = c :: decode rest ∧ rest <:+ bytes ∧
      (IsPlain c → String.utf8EncodeChar c = [b] ∧ rest = bytes) := by
  have hcons : pieces (b :: bytes) = (begin b).1 ++ piecesFrom (begin b).2 bytes :=
    piecesFrom_cons none b bytes
  rcases begin_cases b with ⟨piece, hb, hplain⟩ | ⟨p, hb, hp⟩
  · refine ⟨piece.shown, bytes, ?_, List.suffix_rfl, fun h => ⟨hplain h, rfl⟩⟩
    rw [decode, hcons, hb]
    rfl
  · obtain ⟨piece, rest, hpieces, hrest, hn⟩ := piecesFrom_pending hp bytes
    refine ⟨piece.shown, rest, ?_, hrest, fun h => absurd h hn⟩
    rw [decode, hcons, hb, List.nil_append, hpieces]
    rfl

/-- A plain word that is shown first is spelled by the first bytes. -/
theorem prefix_of_decode {word : List Char} (hw : ∀ c ∈ word, IsPlain c) {bytes : List UInt8}
    (h : word <+: decode bytes) : encode word <+: bytes := by
  induction word generalizing bytes with
  | nil => exact List.nil_prefix
  | cons c word ih =>
    obtain ⟨hc, hw⟩ := List.forall_mem_cons.mp hw
    cases bytes with
    | nil => exact absurd (List.prefix_nil.mp h) nofun
    | cons b bytes =>
      obtain ⟨d, rest, hd, -, hplain⟩ := decode_cons b bytes
      rw [hd] at h
      obtain ⟨rfl, ht⟩ := List.cons_prefix_cons.mp h
      obtain ⟨hb, rfl⟩ := hplain hc
      rw [encode_cons, hb]
      exact List.cons_prefix_cons.mpr ⟨rfl, ih hw ht⟩

/-- A plain word that is shown for some bytes is spelled in them. -/
theorem infix_of_decode {word : List Char} (hw : ∀ c ∈ word, IsPlain c) {bytes : List UInt8}
    (h : word <:+: decode bytes) : encode word <:+: bytes := by
  -- what is shown after the first character is shown for fewer bytes
  induction hn : bytes.length using Nat.strongRecOn generalizing bytes with
  | ind n ih =>
    cases bytes with
    | nil => exact List.infix_nil.mp h ▸ List.nil_infix
    | cons b bytes =>
      obtain ⟨c, rest, hc, hrest, -⟩ := decode_cons b bytes
      rcases List.infix_cons_iff.mp (hc ▸ h) with hp | hi
      · exact (prefix_of_decode hw (hc ▸ hp)).isInfix
      · have hlt : rest.length < n := by
          have := hrest.length_le
          rw [← hn, List.length_cons]
          omega
        exact ((ih _ hlt hi rfl).trans hrest.isInfix).trans (List.suffix_cons ..).isInfix

/-- A plain word that is spelled by the first bytes of a text starts the text. -/
theorem prefix_of_encode {word : List Char} (hw : ∀ c ∈ word, IsPlain c) {cs : List Char}
    (h : encode word <+: encode cs) : word <+: cs := by
  induction word generalizing cs with
  | nil => exact List.nil_prefix
  | cons w word ih =>
    obtain ⟨hw, hword⟩ := List.forall_mem_cons.mp hw
    have hb : (UInt8.ofNat w.toNat).toNat = w.toNat := toNat_ofNat (Nat.lt_trans hw.2 (by decide))
    rw [encode_cons, encodeChar_small hw.2] at h
    cases cs with
    | nil => exact absurd (List.prefix_nil.mp h) nofun
    | cons c cs =>
      obtain ⟨b, bytes, hc⟩ := List.exists_cons_of_ne_nil (String.utf8EncodeChar_ne_nil (c := c))
      rw [encode_cons, hc] at h
      obtain ⟨rfl, -⟩ := List.cons_prefix_cons.mp h
      obtain ⟨hcode, hone⟩ := eq_of_mem_encodeChar (hb ▸ hw.2) (hc ▸ List.mem_cons_self)
      obtain rfl : c = w := Char.toNat_inj.mp (hcode.trans hb)
      rw [← hc, hone] at h
      exact List.cons_prefix_cons.mpr ⟨rfl, ih hword (List.cons_prefix_cons.mp h).2⟩

theorem infix_right_of_not_mem {α : Type} {a : α} {as xs ys : List α} (h : a :: as <:+: xs ++ ys)
    (ha : a ∉ xs) : a :: as <:+: ys := by
  rcases List.infix_append_iff_ne_nil.mp h with hx | hy | ⟨l, r, hne, -, hlr, hl, -⟩
  · exact absurd (hx.mem List.mem_cons_self) ha
  · exact hy
  · obtain ⟨b, l, rfl⟩ := List.exists_cons_of_ne_nil hne
    obtain ⟨rfl, -⟩ := List.cons.inj hlr
    exact absurd (hl.mem List.mem_cons_self) ha

/-- A plain word that is spelled in the bytes of a text stands in the text. -/
theorem infix_of_encode {word : List Char} (hw : ∀ c ∈ word, IsPlain c) {cs : List Char}
    (h : encode word <:+: encode cs) : word <:+: cs := by
  cases word with
  | nil => exact List.nil_infix
  | cons w word =>
    have hsmall := (List.forall_mem_cons.mp hw).1.2
    induction cs with
    | nil =>
      rw [encode_cons, encodeChar_small hsmall] at h
      exact absurd (List.infix_nil.mp h) nofun
    | cons c cs ih =>
      rcases Nat.lt_or_ge c.toNat 0x80 with hs | hl
      · have hcs : encode (c :: cs) = UInt8.ofNat c.toNat :: encode cs := by
          rw [encode_cons, encodeChar_small hs, List.singleton_append]
        rcases List.infix_cons_iff.mp (hcs ▸ h) with hp | hi
        · exact (prefix_of_encode hw (hcs ▸ hp)).isInfix
        · exact List.infix_cons (ih hi)
      · -- the first byte of the word is none of the bytes of the character
        refine List.infix_cons (ih ?_)
        rw [encode_cons w, encodeChar_small hsmall, List.singleton_append] at h ⊢
        refine infix_right_of_not_mem h fun hm => ?_
        have := encodeChar_large hl hm
        rw [toNat_ofNat (Nat.lt_trans hsmall (by decide))] at this
        omega

end CommentTypes.Text.Utf8
