import CommentTypes.Proofs.Check.Compatible
import CommentTypes.Proofs.Check.Returned

/-!
# Letter case, and what is known of complexity

Whether a type is complex is found out from three texts: from an annotation as it is written, from
the type inferred for a value where a variable is recorded without an annotation, and from the
variable's own record where it is assigned to. They agree, since lower-casing neither makes nor
removes one of the characters that count (`Text.mem_lower`): annotations that differ in letter case
alone are the same type (`Annotation.ofText_congr`), and every variable that is recorded has a
declared type and is flagged as complex exactly if this type is (`walk_declared_flagged`).
-/

namespace CommentTypes

/-- An annotation is complex as it is written if the type that it declares is. -/
@[simp]
theorem Annotation.complex_ofText (raw : String) :
    (ofText raw).complex = TypeName.isComplex (ofText raw).declared :=
  (TypeName.isComplex_lower raw).symm

/-- The type that an annotation declares decides everything about it but its letter case. -/
theorem Annotation.ofText_congr {raw raw' : String} (h : Text.lower raw = Text.lower raw') :
    (ofText raw).declared = (ofText raw').declared ∧
      (ofText raw).complex = (ofText raw').complex := by
  have hdeclared : (ofText raw).declared = (ofText raw').declared := h
  exact ⟨hdeclared, by rw [complex_ofText, complex_ofText, hdeclared]⟩

namespace Check

open Annotation (ofText)

/-- Every variable that a walk has recorded has a declared type, and its flag is that of this
type. -/
theorem walk_declared_flagged (ctx : Context) (cs : List Cursor) {name : String} {b : Binding}
    (h : (name, b) ∈ (walk ctx {} cs).bindings.entries) :
    ∃ d, b.declared = some d ∧ b.complex = TypeName.isComplex d := by
  obtain ⟨d, hd⟩ := (walk_accounted ctx cs).exists_declared h
  exact ⟨d, hd, walk_flagged ctx cs name b h d hd⟩

/-- Annotations that are the same in lower case declare the same type and are complex alike, which
is if the type that they declare is. At every point of a walk, every variable has a declared type
and is known to be complex exactly if this type is. -/
theorem complexity_of_declared_types :
    (∀ raw raw' : String, Text.lower raw = Text.lower raw' →
      (ofText raw).declared = (ofText raw').declared ∧
        (ofText raw).complex = (ofText raw').complex) ∧
    (∀ raw : String, (ofText raw).complex = TypeName.isComplex (ofText raw).declared) ∧
    ∀ (ctx : Context) (k : Nat) (name : String) (b : Binding),
      (name, b) ∈ (walk ctx {} (ctx.source.root.cursors.take k)).bindings.entries →
      ∃ d, b.declared = some d ∧ b.complex = TypeName.isComplex d :=
  ⟨fun _ _ h => Annotation.ofText_congr h, Annotation.complex_ofText,
    fun ctx _ _ _ h => walk_declared_flagged ctx _ h⟩

/-- A variable that is annotated in capitals, and a copy of it. -/
def capitals : Source :=
  .ofOutline "a.js"
    "let n /*: STRING[] */ = [];\nlet m = n;"
    [.rule "program" "" 0 38 2, .rule "lexical_declaration" "" 0 27 1,
      .rule "variable_declarator" "" 4 26 3, .rule "identifier" "name" 4 5 0,
      .rule "comment" "" 6 21 0, .rule "array" "value" 24 26 0,
      .rule "lexical_declaration" "" 28 38 1, .rule "variable_declarator" "" 32 37 2,
      .rule "identifier" "name" 32 33 0, .rule "identifier" "value" 36 37 0]

/-- A capital sigma at the end of a word, a letter with two characters in lower case and the Kelvin
sign do not matter, and neither do capitals in a file. -/
theorem capitals_complexity :
    (Text.lower "ΛΌΓΟΣ[]|İK" = Text.lower "λόγος[]|i̇k" ∧
      (ofText "ΛΌΓΟΣ[]|İK").declared = (ofText "λόγος[]|i̇k").declared ∧
      (ofText "ΛΌΓΟΣ[]|İK").complex = (ofText "λόγος[]|i̇k").complex) ∧
    ((("m", ⟨some "string[]", "string[]", true⟩) : String × Binding) ∈
        (walk (fileContext false capitals) {} (capitals.root.cursors.take 8)).bindings.entries ∧
      ∃ d, some "string[]" = some d ∧ true = TypeName.isComplex d) := by
  have hlower : Text.lower "ΛΌΓΟΣ[]|İK" = Text.lower "λόγος[]|i̇k" := by decide +kernel
  have hcopy : (("m", ⟨some "string[]", "string[]", true⟩) : String × Binding) ∈
      (walk (fileContext false capitals) {} (capitals.root.cursors.take 8)).bindings.entries := by
    decide +kernel
  exact ⟨⟨hlower, complexity_of_declared_types.1 _ _ hlower⟩,
    hcopy, complexity_of_declared_types.2.2 _ 8 _ _ hcopy⟩

end Check

end CommentTypes
