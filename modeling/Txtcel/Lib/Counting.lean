import Mathlib.Data.Set.Card
import Mathlib.Data.Fintype.BigOperators
import Mathlib.Algebra.BigOperators.Finprod

/-!
# Counting and summing over a map that is changed at one point

Two facts about a function on a finite type whose value is replaced at one argument:

* how many arguments have a given value (`card_update`);
* what the sum of all values is (`total_update`), and that moving an amount from one argument to
  another leaves the sum alone (`total_move`).

`countOf_sum` counts class by class. `total_gains` reads it backwards: where the sum was kept and all arguments but one gained, the one
paid what the others gained.
-/

namespace Lib

variable {α β : Type}

/-! ## 1. How many arguments have a value -/

section Count

variable [Finite α]

/-- The number of arguments at which `f` has the value `b`. -/
noncomputable def countOf (f : α → β) (b : β) : Nat := {x | f x = b}.ncard

/-- A count is positive exactly when some argument has the value. -/
theorem countOf_pos {f : α → β} {b : β} : 0 < countOf f b ↔ ∃ x, f x = b := by
  unfold countOf
  rw [Set.ncard_pos]
  rfl

variable [DecidableEq α] [DecidableEq β]

/-- **One replaced value**: the argument leaves the old value's count and joins the new one's. -/
theorem countOf_update (f : α → β) (a : α) (c b : β) :
    countOf (Function.update f a c) b + (if f a = b then 1 else 0) =
      countOf f b + (if c = b then 1 else 0) := by
  unfold countOf
  have hrest : ∀ x, x ≠ a → (Function.update f a c x = b ↔ f x = b) := fun x hx => by
    rw [Function.update_of_ne hx]
  -- both sets are the common part away from `a`, with or without `a` itself
  have hsplit : ∀ g : α → β, {x | g x = b}.ncard =
      {x | x ≠ a ∧ g x = b}.ncard + (if g a = b then 1 else 0) := by
    intro g
    by_cases hg : g a = b
    · have : {x | g x = b} = insert a {x | x ≠ a ∧ g x = b} := by
        ext x
        by_cases hx : x = a
        · simp [hx, hg]
        · simp [hx]
      rw [this, Set.ncard_insert_of_notMem (by simp), if_pos hg]
    · have : {x | g x = b} = {x | x ≠ a ∧ g x = b} := by
        ext x
        by_cases hx : x = a
        · simp [hx, hg]
        · simp [hx]
      rw [if_neg hg, Nat.add_zero, ← this]
  have hsame : {x | x ≠ a ∧ Function.update f a c x = b} = {x | x ≠ a ∧ f x = b} := by
    ext x
    constructor
    · rintro ⟨hx, h⟩
      exact ⟨hx, (hrest x hx).mp h⟩
    · rintro ⟨hx, h⟩
      exact ⟨hx, (hrest x hx).mpr h⟩
  rw [hsplit f, hsplit (Function.update f a c), hsame, Function.update_self]
  omega

omit [DecidableEq α] [DecidableEq β] in
/-- **Counting class by class**, when there are `n` classes. -/
theorem countOf_sum (P : α → Prop) [DecidablePred P] (g : α → Nat) {n : Nat} (hg : ∀ x, g x < n) :
    ∑ i ∈ Finset.range n, countOf (fun x => decide (g x = i ∧ P x)) true =
      countOf (fun x => decide (P x)) true := by
  classical
  have := Fintype.ofFinite α
  have hcard : ∀ Q : α → Prop, ∀ _ : DecidablePred Q,
      countOf (fun x => decide (Q x)) true = (Finset.univ.filter Q).card := by
    intro Q _
    simp [countOf, Set.ncard_eq_toFinset_card']
  rw [hcard, Finset.card_eq_sum_card_fiberwise (f := g) (t := Finset.range n)
    fun x _ => Finset.mem_coe.mpr (Finset.mem_range.mpr (hg x))]
  refine Finset.sum_congr rfl fun i _ => ?_
  rw [hcard, Finset.filter_filter]
  refine congrArg Finset.card (Finset.filter_congr fun x _ => ?_)
  exact and_comm

end Count

/-! ## 2. The sum of all values -/

section Total

variable [Finite α] [DecidableEq α]

/-- The sum of all values. -/
noncomputable def total (f : α → Nat) : Nat := ∑ᶠ x, f x

theorem total_update (f : α → Nat) (a : α) (n : Nat) :
    total (Function.update f a n) + f a = total f + n := by
  have := Fintype.ofFinite α
  unfold total
  rw [finsum_eq_sum_of_fintype, finsum_eq_sum_of_fintype,
    Finset.sum_update_of_mem (Finset.mem_univ a),
    ← Finset.add_sum_erase Finset.univ f (Finset.mem_univ a), Finset.sdiff_singleton_eq_erase]
  omega

/-- **Moving an amount keeps the sum**, also from an argument to itself. -/
theorem total_move (f : α → Nat) (a b : α) (n : Nat) (hn : n ≤ f a) :
    total (Function.update (Function.update f a (f a - n)) b
      (Function.update f a (f a - n) b + n)) = total f := by
  have h1 := total_update f a (f a - n)
  have h2 := total_update (Function.update f a (f a - n)) b
    (Function.update f a (f a - n) b + n)
  omega

omit [DecidableEq α] in
theorem total_add (f g : α → Nat) : total (fun x => f x + g x) = total f + total g := by
  have := Fintype.ofFinite α
  unfold total
  rw [finsum_eq_sum_of_fintype, finsum_eq_sum_of_fintype, finsum_eq_sum_of_fintype,
    Finset.sum_add_distrib]

omit [Finite α] [DecidableEq α] in
theorem total_zero : total (fun _ : α => 0) = 0 := finsum_zero

omit [DecidableEq α] in
/-- One value is part of the sum. -/
theorem le_total (f : α → Nat) (a : α) : f a ≤ total f := by
  have := Fintype.ofFinite α
  unfold total
  rw [finsum_eq_sum_of_fintype]
  exact Finset.single_le_sum (fun x _ => Nat.zero_le (f x)) (Finset.mem_univ a)

/-- The sum of one value. -/
theorem total_single (a : α) (n : Nat) : total (fun x => if x = a then n else 0) = n := by
  have := Fintype.ofFinite α
  unfold total
  rw [finsum_eq_sum_of_fintype, Finset.sum_ite_eq' Finset.univ a fun _ => n]
  simp

/-- **Who pays**: where the sum is kept and everybody but `p` gains, `p` pays all gains. -/
theorem total_gains {f g gain : α → Nat} {p : α} (hp : gain p = 0)
    (h : ∀ x, x ≠ p → g x = f x + gain x) (ht : total g = total f) : g p + total gain = f p := by
  have hsame : (fun x => f x + gain x) = Function.update g p (f p) := by
    funext x
    by_cases hx : x = p
    · subst hx
      rw [Function.update_self, hp, Nat.add_zero]
    · rw [Function.update_of_ne hx, h x hx]
  have hsum := total_add f gain
  rw [hsame] at hsum
  have := total_update g p (f p)
  omega

end Total

end Lib
