import CommentTypes.Annotation.Tags
import CommentTypes.Log
import CommentTypes.NameMap
import CommentTypes.Text.Join
import CommentTypes.Tree.Expression

/-!
# Signatures

Signatures of functions. The functions of a file are its function declarations and its variables
whose value is a function; the comments before them give the types.
-/

namespace CommentTypes

/-- The types of a function's parameters and of what it returns. -/
structure Signature where
  name : String
  params : List (String × TypeName) := []
  returns : Option TypeName := none
  deriving DecidableEq

namespace Signature

/-- The function has tagged parameters. -/
def hasParams (s : Signature) : Bool :=
  !s.params.isEmpty

/-- The signature in words. A function that is not said to return anything has a question mark. -/
def render (s : Signature) : String :=
  let params := Text.joinWith ", " (s.params.map fun p => s!"{p.1}: {p.2}")
  let returns := match s.returns with
    | none | some "" => "?"
    | some type => type
  s!"{s.name}({params}) -> {returns}"

end Signature

/-- The signatures of a file by name, in the order of the first function of each name. -/
abbrev Registry := NameMap Signature

namespace Registry

/-- Records a signature under its name. -/
def register (r : Registry) (s : Signature) : Registry :=
  r.insert s.name s

/-- The type that a function returns. -/
def returns? (r : Registry) (name : String) : Option TypeName :=
  (r.find? name).bind Signature.returns

end Registry

/-- The name of the function that a node defines, if it defines one and the name is not empty. -/
def Node.functionName? (n : Node) : Option String :=
  let name :=
    if n.kind.declaresFunction then n.nameText?
    else if n.kind = .variableDeclarator && (n.child? .value).any Node.isFunction then n.boundName?
    else none
  name.filter (· != "")

/-- The signature of the function that a node defines. -/
def Cursor.signature? (c : Cursor) : Option Signature :=
  c.node.functionName?.map fun name =>
    { name, params := c.tags.params, returns := c.tags.returns }

namespace Registry

/-- The signatures of all functions of a tree. The last function of a name counts. -/
def ofTree (root : Node) : Registry :=
  (root.cursors.filterMap Cursor.signature?).foldl register {}

theorem find?_foldl_register (fs : List Signature) (r : Registry) (name : String) :
    (fs.foldl register r).find? name =
      (fs.reverse.find? (·.name = name)).or (r.find? name) := by
  induction fs generalizing r with
  | nil => rfl
  | cons f fs ih =>
    rw [List.foldl_cons, ih, register, NameMap.find?_insert, List.reverse_cons, List.find?_append,
      Option.or_assoc]
    by_cases h : f.name = name
    · simp [h]
    · simp [h, Ne.symm h]

/-- A function has the signature of the last function of its name. -/
theorem find?_ofTree (root : Node) (name : String) :
    (ofTree root).find? name =
      (root.cursors.filterMap Cursor.signature?).reverse.find? (·.name = name) := by
  rw [ofTree, find?_foldl_register]
  exact Option.or_none

/-- The signatures of all functions of a tree, each reported. -/
def collect (root : Node) : Logged Registry :=
  let registry := ofTree root
  ⟨registry, registry.values.map fun s => ⟨.debug, .signatures, s!"Signature {s.render}"⟩⟩

end Registry

end CommentTypes
