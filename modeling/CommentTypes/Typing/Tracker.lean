import CommentTypes.NameMap
import CommentTypes.Typing.TypeName

/-!
# Variables

What is known of the variables of a file. A declaration records a binding in place of an earlier
one; a refresh changes the inferred type of a binding and nothing else.
-/

namespace CommentTypes

/-- What is known of one variable. -/
structure Binding where
  declared : Option TypeName
  inferred : TypeName
  complex : Bool
  deriving DecidableEq

/-- The bindings of a file by name, in the order of their first declarations. -/
abbrev Tracker := NameMap Binding

namespace Tracker

/-- A binding of which nothing is said about complexity is complex if its declared type is. -/
def binding (declared : Option TypeName) (inferred : TypeName) (complex : Option Bool := none) :
    Binding :=
  { declared, inferred, complex := complex.getD (declared.any TypeName.isComplex) }

/-- Records a variable, in place of what was known of its name. -/
def declare (t : Tracker) (name : String) (declared : Option TypeName) (inferred : TypeName)
    (complex : Option Bool := none) : Tracker :=
  t.insert name (binding declared inferred complex)

/-- Changes the inferred type of a variable that is known. -/
def refresh (t : Tracker) (name : String) (inferred : TypeName) : Tracker :=
  t.modify name fun b => { b with inferred }

/-- Forgets all variables. -/
def reset (_ : Tracker) : Tracker := {}

/-- The inferred type of a variable. -/
def resolve? (t : Tracker) (name : String) : Option TypeName :=
  (t.find? name).map Binding.inferred

end Tracker

end CommentTypes
