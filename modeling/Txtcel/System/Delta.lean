import Txtcel.System.TwoRuns

/-!
# What an operation does, account by account

A `Delta` says for each account which data and which owner it gets, if any, and what it gains and
loses. Deltas of operations that write different accounts, and that charge nobody the other one
pays, commute (`Apart`).

`Undisturbed σ τ`: the accounts that look the same after a step and hold no less. A handler that
looks at these only succeeds after the step where it succeeded before (`alike_undisturbed`).
-/

namespace Txtcel

open Lib Exec Borsh Function

variable {R : Runtime} {σ τ : Ledger} {k p : Pubkey}

/-! ## 1. Deltas -/

structure Delta where
  data : Pubkey → Option Bytes
  owner : Pubkey → Option Pubkey
  gain : Pubkey → Nat
  loss : Pubkey → Nat

instance : Inhabited Delta := ⟨⟨fun _ => none, fun _ => none, fun _ => 0, fun _ => 0⟩⟩

namespace Delta

variable {d e : Delta} {S : Set Pubkey}

/-- The delta is the change, but for the lamports of the accounts in `S`. -/
structure Does (d : Delta) (S : Set Pubkey) (σ τ : Ledger) : Prop where
  data : ∀ k, τ.data k = (d.data k).getD (σ.data k)
  owner : ∀ k, τ.owner k = (d.owner k).getD (σ.owner k)
  lamports : ∀ k, k ∉ S → τ.lamports k = σ.lamports k + d.gain k - d.loss k

/-- Neither writes what the other writes, or charges whom the other pays. -/
structure Apart (d e : Delta) : Prop where
  data : ∀ k, d.data k = none ∨ e.data k = none
  owner : ∀ k, d.owner k = none ∨ e.owner k = none
  loss : ∀ k, d.loss k = 0 ∨ e.gain k = 0
  gain : ∀ k, d.gain k = 0 ∨ e.loss k = 0

theorem Apart.symm (h : d.Apart e) : e.Apart d where
  data k := (h.data k).symm
  owner k := (h.owner k).symm
  loss k := (h.gain k).symm
  gain k := (h.loss k).symm

/-- Each charges one account, and neither pays the other's. -/
theorem apart_of_payers {p q : Pubkey} (hdata : ∀ k, d.data k = none ∨ e.data k = none)
    (howner : ∀ k, d.owner k = none ∨ e.owner k = none) (hd : ∀ k, k ≠ p → d.loss k = 0)
    (he : ∀ k, k ≠ q → e.loss k = 0) (hp : e.gain p = 0) (hq : d.gain q = 0) : d.Apart e where
  data := hdata
  owner := howner
  loss k := by
    by_cases hk : k = p
    · exact .inr (hk ▸ hp)
    · exact .inl (hd k hk)
  gain k := by
    by_cases hk : k = q
    · exact .inl (hk ▸ hq)
    · exact .inr (he k hk)

/-- Two writes of which one is none. -/
theorem getD_comm {α : Type} {x y : Option α} (h : x = none ∨ y = none) (v : α) :
    y.getD (x.getD v) = x.getD (y.getD v) := by
  rcases h with rfl | rfl
  · rfl
  · rfl

theorem Apart.lamports_comm (h : d.Apart e) (k : Pubkey) (n : Nat) :
    n + d.gain k - d.loss k + e.gain k - e.loss k =
      n + e.gain k - e.loss k + d.gain k - d.loss k := by
  have hl := h.loss k
  have hg := h.gain k
  omega

end Delta

/-! ## 2. What a step leaves as it was -/

/-- The accounts that look the same, and hold no less. -/
def Undisturbed (σ τ : Ledger) : Set Pubkey :=
  {k | τ.data k = σ.data k ∧ τ.owner k = σ.owner k ∧ σ.lamports k ≤ τ.lamports k}

theorem alike_undisturbed (h : total τ.lamports < 2 ^ 64) :
    Alike (Undisturbed σ τ) (Undisturbed σ τ) σ τ where
  data _ hk := hk.1
  owner _ hk := hk.2.1
  le _ hk := hk.2.2
  same _ hk hz := absurd hk hz
  supply := .inr h

namespace Undisturbed

theorem free_iff (h : k ∈ Undisturbed σ τ) : τ.Free k ↔ σ.Free k := by
  rw [Ledger.Free, Ledger.Free, h.1, h.2.1]

theorem holds {α : Type} [Borsh α] {x : α} (h : k ∈ Undisturbed σ τ) (hx : σ.Holds R k x) :
    τ.Holds R k x :=
  ⟨h.2.1.trans hx.owner, hx.fits, h.1.trans hx.data⟩

/-- What a delta does not write is undisturbed, unless it is charged. -/
theorem of_does {d : Delta} {S : Set Pubkey} (h : d.Does S σ τ) (hd : d.data k = none)
    (ho : d.owner k = none) (hle : σ.lamports k ≤ τ.lamports k) : k ∈ Undisturbed σ τ := by
  refine ⟨?_, ?_, hle⟩
  · rw [h.data, hd]
    rfl
  · rw [h.owner, ho]
    rfl

end Undisturbed

/-- Only a System-owned payer loses anything. -/
theorem Ledger.Spends.le (h : σ.Spends p τ) (hk : k ≠ p ∨ σ.owner k ≠ systemProgram) :
    σ.lamports k ≤ τ.lamports k := by
  by_cases hp : k = p
  · subst hp
    have ho := hk.resolve_left (not_not.mpr rfl)
    exact Nat.le_of_not_lt fun hlt => ho (h.payer hlt)
  · exact h.others k hp

/-! ## 3. A thread that has grown -/

/-- The thread may have grown; what a post is charged is the same. -/
structure ThreadNode.Grown (t t' : ThreadNode) : Prop where
  tag : t'.tag = t.tag
  author : t'.author = t.author
  messageFee : t'.messageFee = t.messageFee
  last_le : t.lastAllocSeq ≤ t'.lastAllocSeq

theorem ThreadNode.Grown.refl (t : ThreadNode) : t.Grown t := ⟨rfl, rfl, rfl, UInt32.le_refl _⟩

end Txtcel
