import Txtcel.Spec.Platform

/-!
# What reaches an account

The balance of an account that is not the payer after each operation, as its balance before plus
what arrived. For a fee shard the arrivals are exact only while it holds the rent minimum:
`collect` pays a missing minimum instead of the fee where that is more.

* `opened`, `shortfall`: the balance a shard has once it is initialized, and what that took;
* `sweptFrom`, `sweptTo`: what a sweep takes from an account and brings to it (`sweep_flow`).
-/

namespace Txtcel

open Lib Function

variable {R : Runtime} {σ : Ledger} {p k s a t : Pubkey} {r n : Nat}

/-! ## 1. Single operations -/

namespace Ledger

/-- What a free account lacks of a balance. -/
def shortfall (σ : Ledger) (r : Nat) (s : Pubkey) : Nat := if σ.Free s then r - σ.lamports s else 0

/-- The balance of a shard once it is initialized. -/
def opened (σ : Ledger) (r : Nat) (s : Pubkey) : Nat := σ.lamports s + σ.shortfall r s

theorem opened_of_not_free (h : ¬ σ.Free s) : σ.opened r s = σ.lamports s := by
  rw [opened, shortfall, if_neg h, Nat.add_zero]

theorem opened_of_free (h : σ.Free s) : σ.opened r s = max (σ.lamports s) r := by
  rw [opened, shortfall, if_pos h]
  omega

theorem le_opened_of_free (h : σ.Free s) : r ≤ σ.opened r s := by
  rw [opened_of_free h]
  exact Nat.le_max_right _ _

/-- A payment arrives at its receiver only. -/
theorem pay_lamports (h : s ≠ p) :
    (σ.pay p k n).lamports s = σ.lamports s + if s = k then n else 0 := by
  by_cases hk : s = k
  · subst hk
    rw [if_pos rfl, pay_dst _ _ _ _ h]
  · rw [if_neg hk, pay_other _ _ _ _ _ h hk, Nat.add_zero]

theorem create_lamports_of_ne {o : Pubkey} {m : Nat} (h : s ≠ p) (hk : s ≠ k) :
    (σ.create p k o r m).lamports s = σ.lamports s := by
  rw [create_lamports, pay_lamports h, if_neg hk, Nat.add_zero]

/-- A fee arrives exactly, where the shard holds its minimum. -/
theorem collect_lamports (h : s ≠ p) (hf : s = k → r ≤ σ.lamports s) :
    (σ.collect r n p k).lamports s = σ.lamports s + if s = k then n else 0 := by
  by_cases hk : s = k
  · rw [collect_funded n (hk ▸ hf hk), pay_lamports h]
  · unfold collect
    split
    · rfl
    · rw [pay_lamports h, if_neg hk]

/-- Both legs of a split arrive, at a rate of at most 100 %. -/
theorem split_lamports {amount cut : Nat} (h : s ≠ p) (ha : s = a → r ≤ σ.lamports s)
    (ht : s = t → r ≤ σ.lamports s) (hlt : amount < 2 ^ 64) (hcut : cut ≤ 10000) :
    (σ.split r amount cut p a t).lamports s = σ.lamports s +
      (if s = t then feeShare amount cut else 0) +
        (if s = a then amount - feeShare amount cut else 0) := by
  unfold split
  rw [computeFeeSplit_eq hlt hcut]
  show ((σ.collect r (feeShare amount cut) p t).collect r (amount - feeShare amount cut) p
    a).lamports s = _
  have hleg := collect_lamports (n := feeShare amount cut) h ht
  rw [collect_lamports h, hleg]
  intro hs
  rw [hleg]
  exact Nat.le_add_right_of_le (ha hs)

/-- The fees of a post arrive, where the shards hold their minimum. -/
theorem fees_lamports {base amount cut : Nat} (h : s ≠ p) (ha : s = a → r ≤ σ.lamports s)
    (ht : s = t → r ≤ σ.lamports s) (hlt : amount < 2 ^ 64) (hcut : cut ≤ 10000) :
    ((σ.collect r base p t).split r amount cut p a t).lamports s = σ.lamports s +
      (if s = t then base + feeShare amount cut else 0) +
        (if s = a then amount - feeShare amount cut else 0) := by
  have hbase := collect_lamports (n := base) h ht
  have hge := Nat.le.intro hbase.symm
  rw [split_lamports h (fun hs => (ha hs).trans hge) (fun hs => (ht hs).trans hge) hlt hcut, hbase]
  split
  · omega
  · omega

/-- An opened shard is not free; nothing else is claimed. -/
theorem openShard_free : (σ.openShard R r p k).Free s ↔ σ.Free s ∧ s ≠ k := by
  by_cases hs : s = k
  · subst hs
    simp only [ne_eq, not_true_eq_false, and_false, iff_false]
    unfold openShard
    split
    · intro h
      have ho := h.1
      rw [create_owner, update_self] at ho
      exact R.programId_ne ho
    · assumption
  · unfold openShard
    split <;> simp [Free, hs]

theorem openShard_lamports (h : s ≠ p) :
    (σ.openShard R r p k).lamports s = if s = k then σ.opened r s else σ.lamports s := by
  unfold openShard
  by_cases hk : s = k
  · subst hk
    rw [if_pos rfl]
    by_cases hf : σ.Free s
    · rw [if_pos hf, create_lamports, pay_lamports h, if_pos rfl, opened, shortfall, if_pos hf]
    · rw [if_neg hf, opened_of_not_free hf]
  · rw [if_neg hk]
    split
    · exact create_lamports_of_ne h hk
    · rfl

theorem openShards_lamports (h : s ≠ p) : (σ.openShards R r p t a).lamports s =
    if s = t ∨ s = a then σ.opened r s else σ.lamports s := by
  unfold openShards
  rw [openShard_lamports h]
  by_cases ha : s = a
  · subst ha
    rw [if_pos rfl, if_pos (.inr rfl)]
    have hlam := openShard_lamports (R := R) (σ := σ) (r := r) (k := t) h
    by_cases ht : s = t
    · subst ht
      rw [if_pos rfl] at hlam
      rw [opened_of_not_free, hlam]
      rw [openShard_free]
      exact fun hf => hf.2 rfl
    · rw [if_neg ht] at hlam
      have hfree : (σ.openShard R r p t).Free s ↔ σ.Free s := by
        rw [openShard_free]
        exact and_iff_left ht
      rw [opened, opened, hlam, shortfall, shortfall, hlam]
      simp only [hfree]
  · rw [if_neg ha, openShard_lamports h]
    simp only [ha, or_false]

/-! ### What nobody but the payer loses -/

theorem le_pay (h : k ≠ p) : σ.lamports k ≤ (σ.pay p t n).lamports k := by
  rw [pay_lamports h]
  exact Nat.le_add_right _ _

theorem le_create {o : Pubkey} {m : Nat} (h : k ≠ p) :
    σ.lamports k ≤ (σ.create p t o r m).lamports k := by
  rw [create_lamports]
  exact le_pay h

theorem le_collect (h : k ≠ p) : σ.lamports k ≤ (σ.collect r n p t).lamports k := by
  unfold collect
  split
  · exact le_refl _
  · exact le_pay h

theorem le_split {c : Nat} (h : k ≠ p) : σ.lamports k ≤ (σ.split r n c p a t).lamports k :=
  (le_collect h).trans (le_collect h)

theorem le_openShard (h : k ≠ p) : σ.lamports k ≤ (σ.openShard R r p t).lamports k := by
  unfold openShard
  split
  · exact le_create h
  · exact le_refl _

/-- A created account holds what was required. -/
theorem create_funds {o : Pubkey} {m : Nat} (h : k ≠ p) :
    r ≤ (σ.create p k o r m).lamports k := by
  rw [create_lamports, pay_dst _ _ _ _ h]
  omega

/-- A payment of what is missing leaves what was required. -/
theorem pay_funds (h : k ≠ p) : r ≤ (σ.pay p k (r - σ.lamports k)).lamports k := by
  rw [pay_dst _ _ _ _ h]
  omega

end Ledger

/-! ## 2. Sweeps -/

/-- What a sweep takes from `s`. -/
def Ledger.sweptFrom (σ : Ledger) (r : Nat) (q s : Pubkey) : List Pubkey → Nat
  | [] => 0
  | k :: ks =>
    if σ.Free k then σ.sweptFrom r q s ks
    else (if s = k then σ.lamports k - r else 0) +
      (σ.pay k q (σ.lamports k - r)).sweptFrom r q s ks

/-- What a sweep brings to `s`, which may be a shard itself. -/
def Ledger.sweptTo (σ : Ledger) (r : Nat) (q s : Pubkey) : List Pubkey → Nat
  | [] => 0
  | k :: ks =>
    if σ.Free k then σ.sweptTo r q s ks
    else (if s = q then σ.lamports k - r else 0) +
      (σ.pay k q (σ.lamports k - r)).sweptTo r q s ks

/-- **A sweep takes and brings**, also where a shard is listed twice or is the recipient. -/
theorem sweep_flow {q : Pubkey} {ks : List Pubkey} :
    (σ.sweep r q ks).lamports s + σ.sweptFrom r q s ks = σ.lamports s + σ.sweptTo r q s ks := by
  induction ks generalizing σ with
  | nil => rfl
  | cons k ks ih =>
    unfold Ledger.sweep Ledger.sweptFrom Ledger.sweptTo
    split
    · exact ih
    · have hrest := ih (σ := σ.pay k q (σ.lamports k - r))
      -- the one payment, from its four sides
      have hone : (σ.pay k q (σ.lamports k - r)).lamports s +
          (if s = k then σ.lamports k - r else 0) =
            σ.lamports s + if s = q then σ.lamports k - r else 0 := by
        by_cases hk : s = k
        · subst hk
          by_cases hq : s = q
          · subst hq
            simp only [Ledger.pay, update_self, if_pos]
            omega
          · rw [if_pos rfl, if_neg hq, Ledger.pay_src _ _ _ _ (Ne.symm hq)]
            omega
        · rw [if_neg hk, Ledger.pay_lamports hk, Nat.add_zero]
      omega

end Txtcel
