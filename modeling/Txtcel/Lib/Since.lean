import Mathlib.Data.List.Basic

/-!
# Counting since the last reset

The number of events of one kind in a history, counted from the last event of another kind on: the
value a counter should have that the first kind increments and the second sets back.

* `countSince_snoc`: one event more;
* `countSince_split`: the counted part is what follows the last reset.
-/

namespace Lib

variable {α : Type} {p q : α → Bool}

/-- The events of kind `p` since the last one of kind `q`. -/
def countSince (p q : α → Bool) (xs : List α) : Nat :=
  xs.foldl (fun n x => if q x then 0 else if p x then n + 1 else n) 0

@[simp] theorem countSince_nil : countSince p q [] = 0 := rfl

theorem countSince_snoc (xs : List α) (x : α) : countSince p q (xs ++ [x]) =
    if q x then 0 else if p x then countSince p q xs + 1 else countSince p q xs := by
  simp [countSince]

/-- Without a reset, all are counted. -/
theorem countSince_append (pre : List α) {post : List α} (h : ∀ x ∈ post, q x = false) :
    countSince p q (pre ++ post) = countSince p q pre + post.countP p := by
  induction post generalizing pre with
  | nil => simp
  | cons x post ih =>
    have hx : q x = false := h x List.mem_cons_self
    have hpost := ih (pre ++ [x]) fun y hy => h y (List.mem_cons_of_mem _ hy)
    rw [List.append_assoc, List.singleton_append] at hpost
    rw [hpost, countSince_snoc, hx, List.countP_cons]
    by_cases hp : p x = true <;> simp [hp, Nat.add_comm, Nat.add_left_comm]

/-- **What is counted** follows the last reset. -/
theorem countSince_split {pre post : List α} {x : α} (hx : q x = true)
    (h : ∀ y ∈ post, q y = false) : countSince p q (pre ++ x :: post) = post.countP p := by
  have hpre := countSince_append (p := p) (pre ++ [x]) h
  rw [List.append_assoc, List.singleton_append] at hpre
  rw [hpre, countSince_snoc, hx, if_pos rfl, Nat.zero_add]

end Lib
