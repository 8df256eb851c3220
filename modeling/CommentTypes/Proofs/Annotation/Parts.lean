import CommentTypes.Annotation.Tags

/-!
# Patterns in a part of a text

A pattern is found in a text if it recognises the front of what is left of the text somewhere
(`firstFrom_eq_none_iff`, `occurrencesFrom_eq_nil`). The inline form ends with a mark of its own,
so that it is recognised whatever follows (`inline_append`): a text in which it is not found has no
part in which it is (`find?_inline_of_infix`). The tags begin with a word, so they are not found
where the word does not stand (`find?_typeTag_of_not_infix`, `paramsOf_of_not_infix`).
-/

namespace CommentTypes

namespace Pattern

variable {p : Pattern}

/-- A pattern is not found if it recognises no end of the text. -/
theorem firstFrom_eq_none_iff {cs : List Char} :
    firstFrom p cs = none ↔ ∀ t, t <:+ cs → t ≠ [] → p t = none := by
  induction cs with
  | nil => simp [firstFrom]
  | cons c cs ih =>
    simp only [firstFrom, List.suffix_cons_iff]
    cases h : p (c :: cs) with
    | some found =>
      refine ⟨nofun, fun hall => ?_⟩
      rw [hall _ (.inl rfl) (List.cons_ne_nil c cs)] at h
      cases h
    | none =>
      refine ih.trans ⟨fun hall t ht hne => ?_, fun hall t ht => hall t (.inr ht)⟩
      rcases ht with rfl | ht
      · exact h
      · exact hall t ht hne

theorem exists_of_firstFrom {cs : List Char} {parts : List String}
    (h : firstFrom p cs = some parts) : ∃ t rest, t <:+ cs ∧ p t = some (parts, rest) := by
  induction cs with
  | nil => cases h
  | cons c cs ih =>
    rw [firstFrom] at h
    split at h
    · rename_i rest hp
      cases h
      exact ⟨c :: cs, rest, List.suffix_rfl, hp⟩
    · obtain ⟨t, rest, ht, hp⟩ := ih h
      exact ⟨t, rest, ht.trans (List.suffix_cons c cs), hp⟩

theorem exists_of_mem_occurrencesFrom {cs : List Char} {offset skip : Nat} {o : Occurrence}
    (h : o ∈ occurrencesFrom p offset skip cs) :
    ∃ t rest, t <:+ cs ∧ p t = some (o.parts, rest) := by
  have hlater : ∀ {c : Char} {cs : List Char}, (∃ t rest, t <:+ cs ∧ p t = some (o.parts, rest)) →
      ∃ t rest, t <:+ c :: cs ∧ p t = some (o.parts, rest) :=
    fun ⟨t, rest, ht, hp⟩ => ⟨t, rest, ht.trans (List.suffix_cons ..), hp⟩
  induction cs generalizing offset skip with
  | nil => cases h
  | cons c cs ih =>
    cases skip with
    | succ skip => exact hlater (ih h)
    | zero =>
      rw [occurrencesFrom] at h
      split at h
      · rename_i parts rest hp
        rcases List.mem_cons.mp h with rfl | h
        · exact ⟨c :: cs, rest, List.suffix_rfl, hp⟩
        · exact hlater (ih h)
      · exact hlater (ih h)

theorem occurrencesFrom_eq_nil {cs : List Char} (h : ∀ t, t <:+ cs → p t = none)
    (offset skip : Nat) : occurrencesFrom p offset skip cs = [] := by
  rw [List.eq_nil_iff_forall_not_mem]
  intro o ho
  obtain ⟨t, rest, ht, hp⟩ := exists_of_mem_occurrencesFrom ho
  rw [h t ht] at hp
  cases hp

end Pattern

namespace Form

theorem after?_eq_some {word cs rest : List Char} :
    after? word cs = some rest ↔ cs = word ++ rest := by
  unfold after?
  split
  · rename_i h
    obtain ⟨more, rfl⟩ := List.isPrefixOf_iff_prefix.mp h
    simp
  · rename_i h
    refine ⟨nofun, fun e => absurd ?_ h⟩
    exact List.isPrefixOf_iff_prefix.mpr ⟨rest, e.symm⟩

theorem after?_append {word cs rest : List Char} (h : after? word cs = some rest)
    (more : List Char) : after? word (cs ++ more) = some (rest ++ more) := by
  rw [after?_eq_some] at h ⊢
  rw [h, List.append_assoc]

theorem dropWhile_append_of_ne_nil {p : Char → Bool} {cs : List Char} (h : cs.dropWhile p ≠ [])
    (more : List Char) : (cs ++ more).dropWhile p = cs.dropWhile p ++ more := by
  rw [List.dropWhile_append, List.isEmpty_eq_false_iff.mpr h, if_neg Bool.false_ne_true]

theorem skipBlanks_ne_nil_of_after? {word cs rest : List Char} (hw : word ≠ [])
    (h : after? word (skipBlanks cs) = some rest) : skipBlanks cs ≠ [] := by
  rw [after?_eq_some.mp h]
  exact List.append_ne_nil_of_left_ne_nil hw rest

theorem after?_skipBlanks_append {word cs rest : List Char} (hw : word ≠ [])
    (h : after? word (skipBlanks cs) = some rest) (more : List Char) :
    after? word (skipBlanks (cs ++ more)) = some (rest ++ more) := by
  rw [skipBlanks, dropWhile_append_of_ne_nil (skipBlanks_ne_nil_of_after? hw h)]
  exact after?_append h more

theorem run?_append {p : Char → Bool} {cs rest : List Char} {type : String}
    (h : run? p cs = some (type, rest)) (hne : rest ≠ []) (more : List Char) :
    run? p (cs ++ more) = some (type, rest ++ more) := by
  have hrest : cs.dropWhile p = rest := by
    unfold run? at h
    split at h <;> cases h
    rfl
  rw [← hrest] at hne
  -- the run ends inside, since something is left of the text
  have htake : (cs ++ more).takeWhile p = cs.takeWhile p := by
    rw [List.takeWhile_append, if_neg]
    intro hl
    have happ := congrArg List.length (List.takeWhile_append_dropWhile (p := p) (l := cs))
    rw [List.length_append, hl] at happ
    exact hne (List.eq_nil_of_length_eq_zero (by omega))
  unfold run? at h ⊢
  rw [htake, dropWhile_append_of_ne_nil hne]
  split at h
  · cases h
  · cases h
    rfl

/-- A type with marks around it: an opening and a mark before it, and a closing behind it. The
inline form and the type tag are written in this way. -/
def marked (opening mark closing : List Char) : Pattern := fun cs => do
  let cs ← after? opening cs
  let cs ← after? mark (skipBlanks cs)
  let (type, cs) ← run? isTypeChar (skipBlanks cs)
  let cs ← after? closing (skipBlanks cs)
  return ([type], cs)

theorem inline_eq_marked : inline = marked ['/', '*'] [':'] ['*', '/'] := rfl

theorem typeTag_eq_marked : typeTag = marked "@type".toList ['\x7b'] ['\x7d'] := rfl

/-- The parts of a type with marks around it, one after the other. -/
theorem marked_eq_some {opening mark closing cs rest : List Char} {parts : List String} :
    marked opening mark closing cs = some (parts, rest) ↔ ∃ opened begun type typed,
      after? opening cs = some opened ∧ after? mark (skipBlanks opened) = some begun ∧
      run? isTypeChar (skipBlanks begun) = some (type, typed) ∧
      after? closing (skipBlanks typed) = some rest ∧ parts = [type] := by
  simp only [marked, Option.bind_eq_bind, Option.bind_eq_some_iff, Option.pure_def,
    Option.some.injEq, Prod.mk.injEq, Prod.exists]
  constructor
  · rintro ⟨opened, ho, begun, hb, type, typed, ht, _, hr, rfl, rfl⟩
    exact ⟨opened, begun, type, typed, ho, hb, ht, hr, rfl⟩
  · rintro ⟨opened, begun, type, typed, ho, hb, ht, hr, rfl⟩
    exact ⟨opened, ho, begun, hb, type, typed, ht, rest, hr, rfl, rfl⟩

/-- The parts of the inline form, one after the other. -/
theorem inline_eq_some {cs rest : List Char} {parts : List String} :
    inline cs = some (parts, rest) ↔ ∃ opened colon type typed,
      after? ['/', '*'] cs = some opened ∧ after? [':'] (skipBlanks opened) = some colon ∧
      run? isTypeChar (skipBlanks colon) = some (type, typed) ∧
      after? ['*', '/'] (skipBlanks typed) = some rest ∧ parts = [type] :=
  inline_eq_marked ▸ marked_eq_some

/-- The inline form is recognised whatever follows it. -/
theorem inline_append {cs rest : List Char} {parts : List String}
    (h : inline cs = some (parts, rest)) (more : List Char) :
    inline (cs ++ more) = some (parts, rest ++ more) := by
  obtain ⟨opened, colon, type, typed, ho, hc, ht, hr, rfl⟩ := inline_eq_some.mp h
  have htyped : typed ≠ [] := by
    rintro rfl
    exact skipBlanks_ne_nil_of_after? (by nofun) hr rfl
  have hcolon : skipBlanks colon ≠ [] := by
    intro hnil
    rw [hnil] at ht
    cases ht
  refine inline_eq_some.mpr ⟨opened ++ more, colon ++ more, type, typed ++ more,
    after?_append ho more, after?_skipBlanks_append (by nofun) hc more, ?_,
    after?_skipBlanks_append (by nofun) hr more, rfl⟩
  rw [skipBlanks, dropWhile_append_of_ne_nil hcolon]
  exact run?_append ht htyped more

theorem find?_inline_eq_none {text : String} :
    inline.find? text = none ↔ Pattern.firstFrom inline text.toList = none := by
  refine ⟨fun h => ?_, fun h => by rw [Pattern.find?, h, Option.bind_none]⟩
  cases hf : Pattern.firstFrom inline text.toList with
  | none => rfl
  | some parts =>
    obtain ⟨t, rest, -, ht⟩ := Pattern.exists_of_firstFrom hf
    obtain ⟨-, -, type, -, -, -, -, -, rfl⟩ := inline_eq_some.mp ht
    rw [Pattern.find?, hf] at h
    cases h

/-- Where the inline form is not found, it is not found in any part. -/
theorem find?_inline_of_infix {text part : String} (h : inline.find? text = none)
    (hpart : part.toList <:+: text.toList) : inline.find? part = none := by
  rw [find?_inline_eq_none, Pattern.firstFrom_eq_none_iff] at h ⊢
  obtain ⟨before, after, htext⟩ := hpart
  intro t ht hne
  obtain ⟨front, hfront⟩ := ht
  cases hp : inline t with
  | none => rfl
  | some found =>
    have hmore := inline_append hp after
    rw [h (t ++ after) ⟨before ++ front, by rw [← htext, ← hfront]; simp⟩ (by simp [hne])] at hmore
    cases hmore

/-! ## Tags -/

theorem prefix_of_after?_bind {α : Type} {word cs : List Char} {f : List Char → Option α} {a : α}
    (h : (after? word cs).bind f = some a) : word <+: cs := by
  obtain ⟨rest, hr, -⟩ := Option.bind_eq_some_iff.mp h
  exact ⟨rest, (after?_eq_some.mp hr).symm⟩

/-- What begins with a word is recognised nowhere in a text without the word. -/
theorem eq_none_of_not_infix {α : Type} {word cs t : List Char} {f : List Char → Option α}
    (h : ¬ word <:+: cs) (ht : t <:+ cs) : (after? word t).bind f = none := by
  rw [← Option.not_isSome_iff_eq_none]
  intro hsome
  obtain ⟨a, ha⟩ := Option.isSome_iff_exists.mp hsome
  exact h ((prefix_of_after?_bind ha).isInfix.trans ht.isInfix)

theorem find?_typeTag_of_not_infix {text : String} (h : ¬ "@type".toList <:+: text.toList) :
    typeTag.find? text = none := by
  have hfirst : Pattern.firstFrom typeTag text.toList = none :=
    Pattern.firstFrom_eq_none_iff.mpr fun t ht _ => eq_none_of_not_infix h ht
  rw [Pattern.find?, hfirst, Option.bind_none]

end Form

theorem Tags.paramsOf_of_not_infix {body : String} (h : ¬ "@param".toList <:+: body.toList) :
    Tags.paramsOf body = [] := by
  have hnone : Form.paramTag.occurrences body = [] :=
    Pattern.occurrencesFrom_eq_nil (fun t ht => Form.eq_none_of_not_infix h ht) 0 0
  rw [paramsOf, hnone, List.filterMap_nil]

end CommentTypes
