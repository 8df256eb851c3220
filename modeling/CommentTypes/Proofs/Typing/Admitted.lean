import CommentTypes.Proofs.Typing.Union

/-!
# Which values a type admits

A value is compared with a declared type in two steps, and the declared type takes part in both: an
array literal is given the declared type as its own, and the comparison then takes this type apart
again. `TypeName.Admits` says in one step which values a type admits, by how the type is written and
by the type that the value has where none is declared. It is what the two steps come to
(`accepts_iff_admits`).

An array literal is judged by its first element alone, so what is known of variables and functions
does not matter to it (`accepts_literal_congr`).
-/

namespace CommentTypes

/-- The name of the type that a literal of this kind has as an element of an array. -/
def Kind.literalName : Kind → TypeName
  | .string => "string"
  | .number => "number"
  | .trueLiteral | .falseLiteral => "boolean"
  | _ => "unknown"

/-- The value is an array literal with these elements, in parentheses or not. -/
def IsLiteralOf (elements : List Node) (value : Option Node) : Prop :=
  ∃ n, value = some n ∧ n.unwrap.kind = .array ∧ n.unwrap.properChildren = elements

namespace Node

theorem shape_eq_array_iff {n : Node} : n.shape = .array ↔ n.unwrap.kind = .array := by
  rw [shape, bareShape]
  cases n.unwrap.kind with
  | unary => cases (n.unwrap.child? .operator).any (·.kind = .void) <;> simp
  | _ => simp

theorem literalType_eq (n : Node) : n.literalType = n.unwrap.kind.literalName := by
  rw [literalType, shape, bareShape]
  cases n.unwrap.kind with
  | unary => cases (n.unwrap.child? .operator).any (·.kind = .void) <;> rfl
  | _ => rfl

theorem isLiteralOf_iff {n : Node} {elements : List Node} :
    IsLiteralOf elements (some n) ↔ n.shape = .array ∧ n.elements = elements := by
  rw [shape_eq_array_iff, Node.elements]
  constructor
  · rintro ⟨m, hm, hkind, hchildren⟩
    cases hm
    exact ⟨hkind, by rw [if_pos hkind, hchildren]⟩
  · rintro ⟨hkind, helements⟩
    rw [if_pos hkind] at helements
    exact ⟨n, rfl, hkind, helements⟩

end Node

theorem isArrayLiteral_iff {value : Option Node} :
    isArrayLiteral value = true ↔ ∃ elements, IsLiteralOf elements value := by
  cases value with
  | none =>
    refine ⟨fun h => absurd h Bool.false_ne_true, ?_⟩
    rintro ⟨elements, n, hn, -⟩
    cases hn
  | some n =>
    simp only [isArrayLiteral, Option.any_some, decide_eq_true_eq, Node.isLiteralOf_iff]
    refine ⟨fun h => ⟨_, h, rfl⟩, ?_⟩
    rintro ⟨elements, h, -⟩
    exact h

namespace TypeName

/-! ## Types as they are written -/

theorem isArray_iff {d : TypeName} : isArray d = true ↔ ∃ t : TypeName, d = t ++ "[]" := by
  rw [isArray, List.isSuffixOf_iff_suffix]
  constructor
  · rintro ⟨front, hd⟩
    exact ⟨String.ofList front, by rw [← String.toList_inj, ← hd]; simp⟩
  · rintro ⟨t, rfl⟩
    exact ⟨t.toList, by simp⟩

/-- What stands before the brackets of an array type is the type of its elements. -/
theorem element_append (t : TypeName) : element (t ++ "[]") = t := by
  have hchars : (t ++ "[]").toList = t.toList ++ ['['] ++ [']'] := by simp
  rw [element, hchars, List.dropLast_concat, List.dropLast_concat, String.ofList_toList]

theorem isComplex_eq_false_iff {d : TypeName} :
    isComplex d = false ↔ ∀ c ∈ d.toList, c ∉ complexChars := by
  simp [isComplex]

theorem isUnion_iff {d : TypeName} : isUnion d = true ↔ '|' ∈ d.toList := by
  rw [isUnion, List.contains_iff_mem]

theorem mem_members_iff {d t : TypeName} :
    t ∈ members d ↔ ∃ piece ∈ d.toList.splitOn '|', t = String.ofList (Text.trim piece) := by
  simp only [members, List.mem_map, eq_comm]

/-! ## Verdicts -/

/-- The values that a type admits. A simple type admits the values of this type. An array type admits
array literals that are empty or begin with a literal of the type before the brackets, and other
values that are arrays or have this very type. A type with bars that does not end like an array type
admits the values whose type stands between the bars. -/
inductive Admits (value : Option Node) (known : Tracker) (signatures : Registry) (d : TypeName) :
    Prop where
  | simple (plain : ∀ c ∈ d.toList, c ∉ complexChars)
    (same : d = inferType value known signatures)
  | emptyLiteral (t : TypeName) (written : d = t ++ "[]") (literal : IsLiteralOf [] value)
  | firstElement (t : TypeName) (written : d = t ++ "[]") (first : Node) (rest : List Node)
    (literal : IsLiteralOf (first :: rest) value) (same : first.unwrap.kind.literalName = t)
  | array (t : TypeName) (written : d = t ++ "[]") (other : ∀ elements, ¬ IsLiteralOf elements value)
    (same : inferType value known signatures = "array" ∨ inferType value known signatures = d)
  | member (written : ∀ t : TypeName, d ≠ t ++ "[]") (bar : '|' ∈ d.toList) (piece : List Char)
    (listed : piece ∈ d.toList.splitOn '|')
    (same : inferType value known signatures = String.ofList (Text.trim piece))

variable {d : TypeName} {value : Option Node} {known : Tracker} {signatures : Registry}

theorem accepts_empty_literal (h : isArray d = true) (hl : IsLiteralOf [] value) :
    d.accepts value known signatures = true := by
  obtain ⟨n, rfl, -⟩ := id hl
  obtain ⟨hn, he⟩ := Node.isLiteralOf_iff.mp hl
  rw [accepts_of_literal h hn, Node.elementsMatch, if_pos hn, he]

theorem accepts_literal_cons (t : TypeName) {first : Node} {rest : List Node}
    (hl : IsLiteralOf (first :: rest) value) :
    TypeName.accepts (t ++ "[]") value known signatures = true ↔
      first.unwrap.kind.literalName = t := by
  obtain ⟨n, rfl, -⟩ := id hl
  obtain ⟨hn, he⟩ := Node.isLiteralOf_iff.mp hl
  rw [accepts_of_literal (isArray_iff.mpr ⟨t, rfl⟩) hn, Node.elementsMatch, if_pos hn, he]
  show (element (t ++ "[]") == first.literalType) = true ↔ first.unwrap.kind.literalName = t
  rw [element_append, Node.literalType_eq, beq_iff_eq, eq_comm]

/-- What a type accepts in two steps it admits in one. -/
theorem admits_of_accepts (h : d.accepts value known signatures = true) :
    d.Admits value known signatures := by
  cases hs : isComplex d with
  | false => exact .simple (isComplex_eq_false_iff.mp hs) ((accepts_of_simple hs).mp h).symm
  | true =>
    cases ha : isArray d with
    | true =>
      obtain ⟨t, rfl⟩ := isArray_iff.mp ha
      cases hl : isArrayLiteral value with
      | true =>
        obtain ⟨elements, hl⟩ := isArrayLiteral_iff.mp hl
        cases elements with
        | nil => exact .emptyLiteral t rfl hl
        | cons first rest =>
          exact .firstElement t rfl first rest hl ((accepts_literal_cons t hl).mp h)
      | false =>
        refine .array t rfl (fun elements he => ?_) ((accepts_of_isArray ha hl).mp h)
        rw [isArrayLiteral_iff.mpr ⟨elements, he⟩] at hl
        cases hl
    | false =>
      cases hu : isUnion d with
      | true =>
        obtain ⟨piece, hpiece, hsame⟩ := mem_members_iff.mp ((accepts_of_isUnion ha hu).mp h)
        refine .member (fun t ht => ?_) (isUnion_iff.mp hu) piece hpiece hsame
        rw [isArray_iff.mpr ⟨t, ht⟩] at ha
        cases ha
      | false =>
        -- the other complex types accept nothing
        simp [accepts, isMatch, hs, ha, hu] at h

/-- What a type admits it accepts, by the rule for the way in which it is written. -/
theorem Admits.accepts (h : d.Admits value known signatures) :
    d.accepts value known signatures = true := by
  cases h with
  | simple plain same => exact (accepts_of_simple (isComplex_eq_false_iff.mpr plain)).mpr same.symm
  | emptyLiteral t written literal =>
    exact accepts_empty_literal (isArray_iff.mpr ⟨t, written⟩) literal
  | firstElement t written first rest literal same =>
    subst written
    exact (accepts_literal_cons t literal).mpr same
  | array t written other same =>
    have hl : isArrayLiteral value = false := by
      rw [← Bool.not_eq_true, isArrayLiteral_iff]
      exact fun ⟨elements, hl⟩ => other elements hl
    exact (accepts_of_isArray (isArray_iff.mpr ⟨t, written⟩) hl).mpr same
  | member written bar piece listed same =>
    have ha : isArray d = false := by
      rw [← Bool.not_eq_true, isArray_iff]
      exact fun ⟨t, ht⟩ => written t ht
    have hmember : inferType value known signatures ∈ members d :=
      mem_members_iff.mpr ⟨piece, listed, same⟩
    exact (accepts_of_isUnion ha (isUnion_iff.mpr bar)).mpr hmember

theorem accepts_iff_admits :
    d.accepts value known signatures = true ↔ d.Admits value known signatures :=
  ⟨admits_of_accepts, Admits.accepts⟩

/-- An array type accepts an array literal whatever is known of variables and functions. -/
theorem accepts_literal_congr (h : isArray d = true) {elements : List Node}
    (hl : IsLiteralOf elements value) (known' : Tracker) (signatures' : Registry) :
    d.accepts value known signatures = d.accepts value known' signatures' := by
  obtain ⟨n, rfl, -⟩ := id hl
  obtain ⟨hn, -⟩ := Node.isLiteralOf_iff.mp hl
  rw [accepts_of_literal h hn, accepts_of_literal h hn]

/-- Finding a type for a value and comparing it with the declared type comes to what the declared
type admits. For an array type and an array literal, what is known of variables and functions does
not matter. -/
theorem verdict_iff_admits (d : TypeName) (value : Option Node) (known : Tracker)
    (signatures : Registry) :
    (isMatch d (inferType value known signatures (some d)) value (isComplex d) = true ↔
      d.Admits value known signatures) ∧
    ∀ (t : TypeName) (elements : List Node) (known' : Tracker) (signatures' : Registry),
      d = t ++ "[]" → IsLiteralOf elements value →
      isMatch d (inferType value known signatures (some d)) value (isComplex d) =
        isMatch d (inferType value known' signatures' (some d)) value (isComplex d) :=
  ⟨accepts_iff_admits, fun t _ known' signatures' hd hl =>
    accepts_literal_congr (isArray_iff.mpr ⟨t, hd⟩) hl known' signatures'⟩

/-- An array of numbers is admitted as such, also where a name is known to be a string. -/
theorem numbers_verdict :
    IsLiteralOf (literals.root.cursorAt 4).node.unwrap.properChildren
      (literals.root.cursorAt 4).node ∧
    TypeName.Admits (literals.root.cursorAt 4).node {} {} "number[]" ∧
    isMatch "number[]" (inferType (literals.root.cursorAt 4).node
        (Tracker.declare {} "x" (some "string") "string") {} (some "number[]"))
      (literals.root.cursorAt 4).node (isComplex "number[]") = true := by
  have hliteral : IsLiteralOf (literals.root.cursorAt 4).node.unwrap.properChildren
      (literals.root.cursorAt 4).node := ⟨_, rfl, by decide +kernel, rfl⟩
  have hmatch : isMatch "number[]" (inferType (literals.root.cursorAt 4).node {} {}
      (some "number[]")) (literals.root.cursorAt 4).node (isComplex "number[]") = true := by
    decide +kernel
  obtain ⟨hverdict, hsame⟩ := verdict_iff_admits "number[]" (literals.root.cursorAt 4).node {} {}
  exact ⟨hliteral, hverdict.mp hmatch, (hsame "number" _ _ _ rfl hliteral).symm.trans hmatch⟩

end TypeName

end CommentTypes
