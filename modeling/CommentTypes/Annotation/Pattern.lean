/-!
# Patterns in a text

A pattern looks at the front of a text and gives what it picks out there
together with the text that follows. `occurrences` finds a pattern from left to right; the next
search starts where an occurrence ends.
-/

namespace CommentTypes

/-- Recognises the front of a text: the parts picked out, and the text after the whole. -/
abbrev Pattern := List Char → Option (List String × List Char)

/-- A place where a pattern occurs, in characters, and the parts picked out there. -/
structure Occurrence where
  start : Nat
  stop : Nat
  parts : List String
  deriving DecidableEq

namespace Pattern

/-- The occurrences in a text that starts at `offset`, of which `skip` characters still belong to
the occurrence before. -/
def occurrencesFrom (p : Pattern) (offset skip : Nat) : List Char → List Occurrence
  | [] => []
  | c :: cs =>
    match skip with
    | skip + 1 => occurrencesFrom p (offset + 1) skip cs
    | 0 =>
      match p (c :: cs) with
      | some (parts, rest) =>
        let length := (c :: cs).length - rest.length
        ⟨offset, offset + length, parts⟩ :: occurrencesFrom p (offset + 1) (length - 1) cs
      | none => occurrencesFrom p (offset + 1) 0 cs

/-- All occurrences in a text, left to right and without overlap. -/
def occurrences (p : Pattern) (text : String) : List Occurrence :=
  occurrencesFrom p 0 0 text.toList

/-- The parts picked out at the first place where a pattern occurs. -/
def firstFrom (p : Pattern) : List Char → Option (List String)
  | [] => none
  | c :: cs =>
    match p (c :: cs) with
    | some (parts, _) => some parts
    | none => firstFrom p cs

/-- The first part picked out at the first place where a pattern occurs. -/
def find? (p : Pattern) (text : String) : Option String :=
  (firstFrom p text.toList).bind List.head?

end Pattern

end CommentTypes
