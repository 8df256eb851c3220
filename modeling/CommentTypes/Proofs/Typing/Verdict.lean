import CommentTypes.Proofs.Text.Lines
import CommentTypes.Typing.Compatibility

/-!
# Types and the values they accept

A value is compared with a type in two steps: a type is found for the value, for which an array
literal takes the declared type over, and then the two types are compared. `TypeName.accepts` is
the verdict of both. It is told by the declared type and by the type found where none is declared:
`accepts_of_simple`, `accepts_of_literal` and `accepts_of_isArray`, `accepts_of_isUnion`.

A type that is found for a value and declared for it at once is not always accepted:
`isMatch_self_iff` says when.
-/

namespace CommentTypes

/-! ## Texts of types -/

theorem Text.trim_subset (cs : List Char) : trim cs ⊆ cs := by
  intro c hc
  have hc := (List.dropWhile_sublist _).subset (List.mem_reverse.mp hc)
  exact (List.dropWhile_sublist _).subset (List.mem_reverse.mp hc)

namespace TypeName

variable {d m : TypeName}

theorem isComplex_of_isArray (h : isArray d = true) : isComplex d = true := by
  obtain ⟨front, hd⟩ := List.isSuffixOf_iff_suffix.mp h
  rw [isComplex, ← hd, List.any_append]
  simp [complexChars]

theorem isComplex_of_isUnion (h : isUnion d = true) : isComplex d = true := by
  rw [isUnion, List.contains_iff_mem] at h
  exact List.any_eq_true.mpr ⟨'|', h, by decide⟩

/-- There is no bar in a member of a union. -/
theorem bar_not_mem_of_mem_members (h : m ∈ members d) : '|' ∉ m.toList := by
  obtain ⟨cs, hcs, rfl⟩ := List.mem_map.mp h
  rw [String.toList_ofList]
  exact fun hbar => not_mem_of_mem_splitOn hcs (Text.trim_subset cs hbar)

/-- A union is none of its members. -/
theorem not_mem_members_self (h : isUnion d = true) : d ∉ members d := fun hmem =>
  bar_not_mem_of_mem_members hmem (List.contains_iff_mem.mp h)

end TypeName

/-! ## Verdicts -/

/-- The value is an array literal. -/
def isArrayLiteral (value : Option Node) : Bool :=
  value.any fun n => n.shape = .array

/-- The value is an array literal without elements. -/
def isEmptyLiteral (value : Option Node) : Bool :=
  value.any fun n => n.shape = .array && n.elements.isEmpty

section

variable {value : Option Node} (known : Tracker) (signatures : Registry) {d : TypeName}

theorem Node.inferredType_of_array {n : Node} (h : n.shape = .array)
    (declared : Option TypeName) :
    n.inferredType known signatures declared = Node.arrayType declared := by
  simp only [inferredType, h]

theorem Node.inferredType_of_not_array {n : Node} (h : n.shape ≠ .array)
    (declared : Option TypeName) :
    n.inferredType known signatures declared = n.inferredType known signatures none := by
  unfold inferredType
  cases hs : n.shape <;> simp_all

/-- What is declared for a value matters to its type only if it is an array literal. -/
theorem inferType_of_not_literal (h : isArrayLiteral value = false) (declared : Option TypeName) :
    inferType value known signatures declared = inferType value known signatures := by
  cases value with
  | none => rfl
  | some n =>
    exact n.inferredType_of_not_array known signatures (by simpa [isArrayLiteral] using h) _

theorem inferType_of_literal (h : isArrayLiteral value = true) (declared : Option TypeName) :
    inferType value known signatures declared = Node.arrayType declared := by
  cases value with
  | none => cases h
  | some n => exact n.inferredType_of_array known signatures (by simpa [isArrayLiteral] using h) _

/-- The type of a value that is not declared to be an array does not depend on what is declared. -/
theorem inferType_of_not_isArray (h : TypeName.isArray d = false) :
    inferType value known signatures (some d) = inferType value known signatures := by
  cases hl : isArrayLiteral value with
  | false => exact inferType_of_not_literal known signatures hl _
  | true =>
    rw [inferType_of_literal known signatures hl, inferType_of_literal known signatures hl]
    simp [Node.arrayType, h]

/-- There are elements to compare only in an array literal. -/
theorem elementsMatch_of_not_literal (h : isArrayLiteral value = false) :
    value.all (·.elementsMatch d) = true := by
  cases value with
  | none => rfl
  | some n =>
    have hn : n.shape ≠ .array := by simpa [isArrayLiteral] using h
    simp [Node.elementsMatch, hn]

end

namespace TypeName

/-- The type, declared for a value, is satisfied by the type found for the value. -/
def accepts (d : TypeName) (value : Option Node) (known : Tracker) (signatures : Registry) : Bool :=
  isMatch d (inferType value known signatures (some d)) value (isComplex d)

variable {d : TypeName} {value : Option Node} {known : Tracker} {signatures : Registry}

/-- A simple type accepts the values of that type. -/
theorem accepts_of_simple (h : isComplex d = false) :
    d.accepts value known signatures = true ↔ inferType value known signatures = d := by
  have ha : isArray d = false := by
    rw [← Bool.not_eq_true]
    exact fun ha => by simp [isComplex_of_isArray ha] at h
  rw [accepts, inferType_of_not_isArray known signatures ha, isMatch, h]
  simp only [Bool.not_false, if_true, beq_iff_eq]
  exact eq_comm

/-- An array type accepts an array literal by its first element. -/
theorem accepts_of_literal {n : Node} (h : isArray d = true) (hn : n.shape = .array) :
    d.accepts (some n) known signatures = n.elementsMatch d := by
  have hc := isComplex_of_isArray h
  have hfound : inferType (some n) known signatures (some d) = d := by
    rw [inferType_of_literal known signatures (by simpa [isArrayLiteral] using hn)]
    simp [Node.arrayType, h, hc]
  simp [accepts, hfound, isMatch, hc, h, matchesArray]

/-- An array type accepts other values if they are arrays, or of that type. -/
theorem accepts_of_isArray (h : isArray d = true) (hl : isArrayLiteral value = false) :
    d.accepts value known signatures = true ↔
      inferType value known signatures = BaseType.array.name ∨
        inferType value known signatures = d := by
  rw [accepts, inferType_of_not_literal known signatures hl, isMatch, isComplex_of_isArray h, h]
  simp [matchesArray, elementsMatch_of_not_literal hl]

/-- A union accepts the values of the types that are its members. -/
theorem accepts_of_isUnion (ha : isArray d = false) (hu : isUnion d = true) :
    d.accepts value known signatures = true ↔ inferType value known signatures ∈ members d := by
  rw [accepts, inferType_of_not_isArray known signatures ha, isMatch, isComplex_of_isUnion hu, ha,
    hu]
  simp

end TypeName

/-- Where a value that is no array literal has the type that is declared for it, the type satisfies
itself if it is simple or an array type. No union and no other complex type does. -/
theorem isMatch_self_iff {d : TypeName} {value : Option Node} {complex : Bool}
    (h : isArrayLiteral value = false) :
    isMatch d d value complex = true ↔ complex = false ∨ TypeName.isArray d = true := by
  cases complex with
  | false => simp [isMatch]
  | true =>
    cases ha : TypeName.isArray d with
    | true => simp [isMatch, ha, matchesArray, elementsMatch_of_not_literal h]
    | false =>
      cases hu : TypeName.isUnion d with
      | true => simp [isMatch, ha, hu, TypeName.not_mem_members_self hu]
      | false => simp [isMatch, ha, hu]

end CommentTypes
