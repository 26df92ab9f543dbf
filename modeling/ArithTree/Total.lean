/-!
# Totals

The sum of a number for each element of a list. The lists of pending work of the walks through
trees are measured by such sums.
-/

namespace ArithTree

variable {α β : Type}

/-- The sum of `f` over a list. -/
def total (f : α → Nat) : List α → Nat
  | [] => 0
  | x :: xs => f x + total f xs

@[simp] theorem total_nil (f : α → Nat) : total f [] = 0 := rfl

@[simp] theorem total_cons (f : α → Nat) (x : α) (xs : List α) :
    total f (x :: xs) = f x + total f xs := rfl

@[simp] theorem total_append (f : α → Nat) (xs ys : List α) :
    total f (xs ++ ys) = total f xs + total f ys := by
  induction xs with
  | nil => simp
  | cons x xs ih => simp [ih]; omega

@[simp] theorem total_reverse (f : α → Nat) (xs : List α) : total f xs.reverse = total f xs := by
  induction xs with
  | nil => rfl
  | cons x xs ih => simp [ih]; omega

@[simp] theorem total_map (f : β → Nat) (g : α → β) (xs : List α) :
    total f (xs.map g) = total (fun x => f (g x)) xs := by
  induction xs with
  | nil => rfl
  | cons x xs ih => simp [ih]

end ArithTree
