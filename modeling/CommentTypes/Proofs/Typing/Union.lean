import CommentTypes.Proofs.Annotation.Inline
import CommentTypes.Proofs.Tree.Order
import CommentTypes.Proofs.Typing.Verdict
import CommentTypes.Text.Join

/-!
# Unions and their members

`TypeName.union` writes some types as a union. The members of what is written are these types again
(`members_union`), and it ends like the last of them (`isArray_union`).

So a union whose last member is no array type accepts exactly the values whose types are members
(`accepts_union_iff_mem`), while one that ends like an array type is taken for an array type as a
whole (`accepts_union_of_isArray`). `union_accepts` compares both with what the members accept.
-/

namespace CommentTypes

namespace Text

theorem trim_of_not_blank {cs : List Char} (h : ∀ c ∈ cs, isBlank c = false) : trim cs = cs := by
  have hdrop : ∀ l : List Char, (∀ c ∈ l, isBlank c = false) → l.dropWhile isBlank = l := by
    intro l hl
    cases l with
    | nil => rfl
    | cons c l => exact List.dropWhile_cons_of_neg (by simp [hl c List.mem_cons_self])
  rw [trim, hdrop cs h, hdrop _ fun c hc => h c (List.mem_reverse.mp hc), List.reverse_reverse]

end Text

theorem intercalate_concat {α : Type} (sep x : List α) {xs : List (List α)} (h : xs ≠ []) :
    sep.intercalate (xs ++ [x]) = sep.intercalate xs ++ (sep ++ x) := by
  induction xs with
  | nil => exact absurd rfl h
  | cons y ys ih =>
    cases ys with
    | nil => simp [List.intercalate_cons_cons]
    | cons z zs =>
      rw [List.cons_append, List.cons_append, List.intercalate_cons_cons, ← List.cons_append,
        ih (List.cons_ne_nil z zs), List.intercalate_cons_cons]
      simp only [List.append_assoc]

namespace TypeName

/-! ## Unions as texts -/

/-- Some types, written as a union. -/
def union (ms : List TypeName) : TypeName :=
  Text.joinWith "|" ms

/-- The type can stand in a union: it is simple or an array type, and made of the characters of
types other than the bar. -/
structure IsMember (m : TypeName) : Prop where
  nonempty : m ≠ ""
  chars : ∀ c ∈ m.toList, Form.isTypeChar c = true ∧ c ≠ '|'
  shape : isComplex m = false ∨ isArray m = true

instance (m : TypeName) : Decidable m.IsMember :=
  decidable_of_iff (m ≠ "" ∧ (m.toList.all fun c => Form.isTypeChar c && c != '|') = true ∧
      (isComplex m = false ∨ isArray m = true))
    ⟨fun h => ⟨h.1, fun c hc => by simpa using List.all_eq_true.mp h.2.1 c hc, h.2.2⟩,
      fun h => ⟨h.nonempty, List.all_eq_true.mpr fun c hc => by simpa using h.chars c hc, h.shape⟩⟩

theorem toList_union (ms : List TypeName) :
    (union ms).toList = ['|'].intercalate (ms.map String.toList) := by
  rw [union, Text.joinWith, String.toList_ofList]
  rfl

@[simp]
theorem union_singleton (m : TypeName) : union [m] = m := by
  simp [union, Text.joinWith]

/-- A union of several types is written with a bar before the last. -/
theorem toList_union_concat {ms : List TypeName} (h : ms ≠ []) (last : TypeName) :
    (union (ms ++ [last])).toList = (union ms).toList ++ '|' :: last.toList := by
  rw [toList_union, toList_union, List.map_append, List.map_singleton,
    intercalate_concat _ _ (by simpa using h)]
  rfl

/-- What is written as a union is taken apart again. -/
theorem members_union {ms : List TypeName} (hne : ms ≠ []) (h : ∀ m ∈ ms, m.IsMember) :
    members (union ms) = ms := by
  have hsplit : (union ms).toList.splitOn '|' = ms.map String.toList := by
    rw [toList_union]
    refine List.splitOn_intercalate '|' (fun cs hcs hbar => ?_) (by simpa using hne)
    obtain ⟨m, hm, rfl⟩ := List.mem_map.mp hcs
    exact ((h m hm).chars '|' hbar).2 rfl
  rw [members, hsplit, List.map_map]
  refine (List.map_congr_left fun m hm => ?_).trans (List.map_id ms)
  have htrim : Text.trim m.toList = m.toList :=
    Text.trim_of_not_blank fun c hc => Form.not_isBlank_of_isTypeChar ((h m hm).chars c hc).1
  rw [Function.comp_apply, htrim, String.ofList_toList, id]

theorem brackets_isSuffix_iff {front back : List Char} :
    ['[', ']'] <:+ front ++ '|' :: back ↔ ['[', ']'] <:+ back := by
  constructor
  · intro h
    rcases List.suffix_or_suffix_of_suffix h (List.suffix_append front ('|' :: back)) with hs | hs
    · rcases List.suffix_cons_iff.mp hs with he | hs
      · exact absurd (List.cons.inj he).1 (by decide)
      · exact hs
    · exact absurd (hs.subset List.mem_cons_self) (by decide)
  · exact fun h => (h.trans (List.suffix_cons ..)).trans (List.suffix_append ..)

/-- A union ends like its last member. -/
theorem isArray_union (ms : List TypeName) (last : TypeName) :
    isArray (union (ms ++ [last])) = isArray last := by
  by_cases h : ms = []
  · rw [h, List.nil_append, union_singleton]
  · rw [isArray, isArray, Bool.eq_iff_iff, List.isSuffixOf_iff_suffix, List.isSuffixOf_iff_suffix,
      toList_union_concat h, brackets_isSuffix_iff]

theorem isUnion_union {ms : List TypeName} (h : ms ≠ []) (last : TypeName) :
    isUnion (union (ms ++ [last])) = true := by
  rw [isUnion, toList_union_concat h, List.contains_iff_mem]
  simp

/-- Without its brackets, a union of several types still has a bar. -/
theorem isUnion_element_union {ms : List TypeName} (h : ms ≠ []) {last : TypeName}
    (hl : isArray last = true) : isUnion (element (union (ms ++ [last]))) = true := by
  obtain ⟨front, hfront⟩ := List.isSuffixOf_iff_suffix.mp hl
  have hchars : (union ms).toList ++ '|' :: (front ++ ['[', ']']) =
      (union ms).toList ++ '|' :: front ++ ['['] ++ [']'] := by simp
  rw [isUnion, element, String.toList_ofList, toList_union_concat h, ← hfront, hchars,
    List.dropLast_concat, List.dropLast_concat, List.contains_iff_mem]
  simp

/-! ## Verdicts -/

variable {value : Option Node} {known : Tracker} {signatures : Registry}

/-- A member accepts a value that is no array if it is the value's type. -/
theorem IsMember.accepts_iff {m : TypeName} (h : m.IsMember)
    (ht : inferType value known signatures ≠ BaseType.array.name) :
    m.accepts value known signatures = true ↔ inferType value known signatures = m := by
  rcases h.shape with hs | ha
  · exact accepts_of_simple hs
  · have hl : isArrayLiteral value = false := by
      rw [← Bool.not_eq_true]
      exact fun hl => ht (inferType_of_literal known signatures hl none)
    rw [accepts_of_isArray ha hl]
    exact or_iff_right ht

/-- The type of a value is one of some members, if one of them accepts it and, for an array, the
type of arrays is one of them. -/
theorem mem_iff_accepts {ms : List TypeName} (h : ∀ m ∈ ms, m.IsMember) :
    inferType value known signatures ∈ ms ↔
      (∃ m ∈ ms, m.accepts value known signatures = true) ∧
        (inferType value known signatures = BaseType.array.name → BaseType.array.name ∈ ms) := by
  by_cases ht : inferType value known signatures = BaseType.array.name
  · have harray : TypeName.accepts BaseType.array.name value known signatures = true :=
      (accepts_of_simple (by decide)).mpr ht
    exact ⟨fun hm => ⟨⟨_, ht ▸ hm, harray⟩, fun _ => ht ▸ hm⟩, fun hm => ht ▸ hm.2 ht⟩
  · constructor
    · exact fun hm => ⟨⟨_, hm, ((h _ hm).accepts_iff ht).mpr rfl⟩, fun e => absurd e ht⟩
    · rintro ⟨⟨m, hm, ha⟩, -⟩
      rwa [((h m hm).accepts_iff ht).mp ha]

/-- A union that does not end like an array type accepts the values whose types are members. -/
theorem accepts_union_iff_mem {ms : List TypeName} (hne : ms ≠ []) (h : ∀ m ∈ ms, m.IsMember)
    (hlast : ∀ m ∈ ms.getLast?, isArray m = false) :
    (union ms).accepts value known signatures = true ↔ inferType value known signatures ∈ ms := by
  obtain ⟨front, last, rfl⟩ := (List.eq_nil_or_concat ms).resolve_left hne
  rw [List.concat_eq_append] at h hlast hne ⊢
  have hl : isArray last = false := hlast last (by simp)
  by_cases hf : front = []
  · subst hf
    have hs : isComplex last = false := ((h last (by simp)).shape).resolve_right (by simp [hl])
    rw [List.nil_append, union_singleton, accepts_of_simple hs, List.mem_singleton]
  · rw [accepts_of_isUnion (by rw [isArray_union, hl]) (isUnion_union hf last), members_union hne h]

/-- A union of several types that ends like an array type accepts empty array literals, and other
values that are arrays or of that very type. -/
theorem accepts_union_of_isArray {ms : List TypeName} (hlen : 2 ≤ ms.length)
    (hlast : ∃ m ∈ ms.getLast?, isArray m = true) :
    (union ms).accepts value known signatures = true ↔
      isEmptyLiteral value = true ∨ isArrayLiteral value = false ∧
        (inferType value known signatures = BaseType.array.name ∨
          inferType value known signatures = union ms) := by
  obtain ⟨front, last, rfl⟩ := (List.eq_nil_or_concat ms).resolve_left fun h => by simp [h] at hlen
  rw [List.concat_eq_append] at hlast hlen ⊢
  have hl : isArray last = true := by simpa using hlast
  have hf : front ≠ [] := fun h => by simp [h] at hlen
  have ha : isArray (union (front ++ [last])) = true := by rw [isArray_union, hl]
  cases hlit : isArrayLiteral value with
  | false =>
    have hempty : isEmptyLiteral value = false := by
      cases value with
      | none => rfl
      | some n => simp_all [isEmptyLiteral, isArrayLiteral]
    rw [accepts_of_isArray ha hlit, hempty]
    simp
  | true =>
    cases value with
    | none => cases hlit
    | some n =>
      have hn : n.shape = .array := by simpa [isArrayLiteral] using hlit
      -- no literal has a type with a bar
      have hbar : ∀ m : Node, element (union (front ++ [last])) ≠ m.literalType := by
        intro m he
        have hu := isUnion_element_union hf hl
        rw [he, Node.literalType] at hu
        split at hu <;> revert hu <;> decide
      rw [accepts_of_literal ha hn, Node.elementsMatch, if_pos hn]
      cases he : n.elements with
      | nil => simp [isEmptyLiteral, hn, he]
      | cons first rest => simp [isEmptyLiteral, hn, he, hbar first]

/-- Unions against their members, for a list of types that are each simple or array types. If there
is only one type, or none is an array type, the union accepts a value exactly if one of them does.
If the last is no array type, the same holds but for arrays, which the union accepts only if the
type of arrays is one of the types; and the order does not matter, as long as the last is no array
type. A union of several types of which the last is an array type accepts the empty array literal,
and values that are no array literals if they are arrays or have the type that is the union
itself. -/
theorem union_accepts (ms : List TypeName) (hne : ms ≠ []) (hms : ∀ m ∈ ms, m.IsMember)
    (value : Option Node) (known : Tracker) (signatures : Registry) :
    ((ms.length = 1 ∨ ∀ m ∈ ms, isArray m = false) →
      ((union ms).accepts value known signatures = true ↔
        ∃ m ∈ ms, m.accepts value known signatures = true)) ∧
    ((∀ m ∈ ms.getLast?, isArray m = false) →
      ((union ms).accepts value known signatures = true ↔
        (∃ m ∈ ms, m.accepts value known signatures = true) ∧
          (inferType value known signatures = BaseType.array.name → BaseType.array.name ∈ ms)) ∧
      ∀ ms' : List TypeName, ms'.Perm ms → (∀ m ∈ ms'.getLast?, isArray m = false) →
        (union ms').accepts value known signatures = (union ms).accepts value known signatures) ∧
    (2 ≤ ms.length → (∃ m ∈ ms.getLast?, isArray m = true) →
      ((union ms).accepts value known signatures = true ↔
        isEmptyLiteral value = true ∨ isArrayLiteral value = false ∧
          (inferType value known signatures = BaseType.array.name ∨
            inferType value known signatures = union ms))) := by
  refine ⟨?_, fun hlast => ⟨?_, fun ms' hperm hlast' => ?_⟩,
    fun hlen => accepts_union_of_isArray hlen⟩
  · rintro (hone | hsimple)
    · obtain ⟨m, rfl⟩ := List.length_eq_one_iff.mp hone
      simp
    · rw [accepts_union_iff_mem hne hms fun m hm => hsimple m (List.mem_of_getLast? hm),
        mem_iff_accepts hms]
      refine and_iff_left_of_imp fun ⟨m, hm, ha⟩ ht => ?_
      have hs : isComplex m = false := ((hms m hm).shape).resolve_right (by simp [hsimple m hm])
      rwa [← ht, (accepts_of_simple hs).mp ha]
  · rw [accepts_union_iff_mem hne hms hlast, mem_iff_accepts hms]
  · have hne' : ms' ≠ [] := fun e => hne (List.nil_perm.mp (e ▸ hperm))
    rw [Bool.eq_iff_iff, accepts_union_iff_mem hne hms hlast,
      accepts_union_iff_mem hne' (fun m hm => hms m (hperm.mem_iff.mp hm)) hlast', hperm.mem_iff]

/-- Variables with an array, an empty array and a string. -/
def literals : Source :=
  .ofOutline "a.js"
    "let x = [1], y = [], z = 's';"
    [.rule "program" "" 0 29 1, .rule "lexical_declaration" "" 0 29 3,
      .rule "variable_declarator" "" 4 11 2, .rule "identifier" "name" 4 5 0,
      .rule "array" "value" 8 11 1, .rule "number" "" 9 10 0,
      .rule "variable_declarator" "" 13 19 2, .rule "identifier" "name" 13 14 0,
      .rule "array" "value" 17 19 0,
      .rule "variable_declarator" "" 21 28 2, .rule "identifier" "name" 21 22 0,
      .rule "string" "value" 25 28 0]

theorem literals_in_unions :
    ((∀ m ∈ ["string", "number"], IsMember m ∧ isArray m = false) ∧
      (union ["string", "number"]).accepts (literals.root.cursorAt 11).node {} {} = true) ∧
    ((∀ m ∈ ["number[]", "string"], IsMember m) ∧
      (∀ m ∈ ["number[]", "string"].getLast?, isArray m = false) ∧
      (union ["number[]", "string"]).accepts (literals.root.cursorAt 11).node {} {} = true) ∧
    (∀ m ∈ ["string", "number[]"], IsMember m) ∧
      (∃ m ∈ ["string", "number[]"].getLast?, isArray m = true) ∧
      (union ["string", "number[]"]).accepts (literals.root.cursorAt 8).node {} {} = true := by
  have hsimple : ∀ m ∈ ["string", "number"], IsMember m ∧ isArray m = false := by decide +kernel
  have hfirst : ∀ m ∈ ["number[]", "string"], IsMember m := by decide +kernel
  have hlast : ∀ m ∈ ["string", "number[]"], IsMember m := by decide +kernel
  have hstring : TypeName.accepts "string" (literals.root.cursorAt 11).node {} {} = true := by
    decide +kernel
  refine ⟨⟨hsimple, ?_⟩, ⟨hfirst, by decide, ?_⟩, hlast, ⟨"number[]", by decide, by decide⟩, ?_⟩
  · exact ((union_accepts _ (by simp) (fun m hm => (hsimple m hm).1) _ _ _).1
      (.inr fun m hm => (hsimple m hm).2)).mpr ⟨"string", by simp, hstring⟩
  · refine ((union_accepts _ (by simp) hfirst _ _ _).2.1 (by decide)).1.mpr
      ⟨⟨"string", by simp, hstring⟩, fun harray => ?_⟩
    exact absurd harray (by decide +kernel)
  · exact ((union_accepts _ (by simp) hlast _ _ _).2.2 (by decide)
      ⟨"number[]", by decide, by decide⟩).mpr (.inl (by decide +kernel))

/-- A union may reject what one of its members accepts, and the order of the members may matter. -/
theorem union_rejects_array :
    (∀ m ∈ ["number[]", "string"], IsMember m) ∧
    ¬ ((union ["number[]", "string"]).accepts (literals.root.cursorAt 4).node {} {} = true ↔
      ∃ m ∈ ["number[]", "string"], accepts m (literals.root.cursorAt 4).node {} {} = true) ∧
    (union ["number[]", "string"]).accepts (literals.root.cursorAt 8).node {} {} ≠
      (union ["string", "number[]"]).accepts (literals.root.cursorAt 8).node {} {} := by
  decide +kernel

end TypeName

end CommentTypes
