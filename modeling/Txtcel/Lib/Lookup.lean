import Mathlib.Logic.Function.Basic

/-!
# A table kept at computed addresses

The entries of a table live in a store, each at the address computed from its index; the address
may not exist, and what is found there may be the entry of another index, or none at all. `lookup`
reads the table off the store, and a write to the store is a change of the table at one index
(`lookup_update`) or none (`lookup_update_of_none`).
-/

namespace Lib

open Function

variable {I K C B : Type} {addr : I → Option K} {read : I → C → Option B}

/-- The entry of `i`: what is read for `i` at its address. -/
def lookup (addr : I → Option K) (read : I → C → Option B) (c : K → C) (i : I) : Option B :=
  (addr i).bind fun k => read i (c k)

theorem lookup_of_addr {c : K → C} {i : I} {k : K} (h : addr i = some k) :
    lookup addr read c i = read i (c k) := by
  rw [lookup, h]
  rfl

theorem lookup_eq_some {c : K → C} {i : I} {b : B} :
    lookup addr read c i = some b ↔ ∃ k, addr i = some k ∧ read i (c k) = some b :=
  Option.bind_eq_some_iff

/-- A table depends on what is read at its addresses. -/
theorem lookup_congr {c d : K → C} {i : I} (h : ∀ k, addr i = some k → read i (c k) = read i (d k)) :
    lookup addr read c i = lookup addr read d i := by
  unfold lookup
  cases ha : addr i with
  | none => rfl
  | some k => exact h k ha

/-- Where nothing is read, there is no entry. -/
theorem lookup_eq_none {c : K → C} {i : I} (h : ∀ k, read i (c k) = none) :
    lookup addr read c i = none := Option.bind_eq_none_iff.mpr fun k _ => h k

section Update

variable [DecidableEq K] {c : K → C} {k : K} {x : C}

/-- **A write at the address of `i` changes the entry of `i`**, when no other index finds its entry
    there, before or after. -/
theorem lookup_update [DecidableEq I] {i : I} (ha : addr i = some k)
    (hold : ∀ j, j ≠ i → read j (c k) = none) (hnew : ∀ j, j ≠ i → read j x = none) :
    lookup addr read (update c k x) = update (lookup addr read c) i (read i x) := by
  funext j
  by_cases hj : j = i
  · subst hj
    rw [update_self, lookup_of_addr ha, update_self]
  · rw [update_of_ne hj]
    refine lookup_congr fun k' _ => ?_
    by_cases hk : k' = k
    · subst hk
      rw [update_self, hold j hj, hnew j hj]
    · rw [update_of_ne hk]

/-- A write where no index finds an entry, before or after, changes nothing. -/
theorem lookup_update_of_none (hold : ∀ j, read j (c k) = none) (hnew : ∀ j, read j x = none) :
    lookup addr read (update c k x) = lookup addr read c := by
  funext j
  refine lookup_congr fun k' _ => ?_
  by_cases hk : k' = k
  · subst hk
    rw [update_self, hold j, hnew j]
  · rw [update_of_ne hk]

end Update

end Lib
