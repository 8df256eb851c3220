/-!
# Limits of depth

How many things may stand within each other before a program gives up. Such limits belong to the
system that the program runs on, and there need not be any.
-/

namespace CommentTypes

/-- The largest number of things within each other, if it is limited. -/
abbrev Limit := Option Nat

namespace Limit

/-- So many things may stand within each other. -/
def allows : Limit → Nat → Bool
  | none, _ => true
  | some most, n => n ≤ most

/-- The limit for what stands within one of the things. -/
def inside (limit : Limit) : Limit :=
  limit.map (· - 1)

theorem allows_eq_false {limit : Limit} {n : Nat} :
    limit.allows n = false ↔ ∃ most ∈ limit, most < n := by
  cases limit with
  | none => simp [allows]
  | some most => simp [allows]

/-- One thing more may stand around others if one may stand there, and within it the others. -/
theorem allows_succ {limit : Limit} {n : Nat} :
    limit.allows (n + 1) ↔ limit.allows 1 ∧ limit.inside.allows n := by
  cases limit with
  | none => simp [allows, inside]
  | some most =>
    simp only [allows, inside, Option.map_some, decide_eq_true_iff]
    omega

end Limit

/-- How deep a program may go on a system. -/
structure Limits where
  /-- Lists and objects within each other in a text. -/
  nesting : Limit := none
  /-- Directories entered one below the other, below a given one. -/
  levels : Limit := none
  /-- Directories missing one above the other, above one that is made. -/
  missing : Limit := none

end CommentTypes
