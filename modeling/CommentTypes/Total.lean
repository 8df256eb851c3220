/-!
# Totals

The numbers that a function gives the items of a list, added up: the weights on a stack, the
comparisons of the files of a run.
-/

namespace CommentTypes

/-- The sum of the numbers that `f` gives the items. -/
def total {α : Type} (f : α → Nat) : List α → Nat
  | [] => 0
  | a :: as => f a + total f as

variable {α β : Type} (f : α → Nat)

@[simp] theorem total_nil : total f [] = 0 := rfl

@[simp]
theorem total_cons (a : α) (as : List α) : total f (a :: as) = f a + total f as := rfl

@[simp]
theorem total_append (as bs : List α) : total f (as ++ bs) = total f as + total f bs := by
  induction as with
  | nil => simp
  | cons a as ih => simp [ih, Nat.add_assoc]

theorem total_map (g : β → α) (bs : List β) : total f (bs.map g) = total (fun b => f (g b)) bs := by
  induction bs with
  | nil => rfl
  | cons b bs ih => simp [ih]

end CommentTypes
