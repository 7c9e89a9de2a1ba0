import Txtcel.Lib.Counting
import Txtcel.Solana

/-!
# What an operation does to the ledger

The operations of the program as functions on the ledger, under the conditions its computations
establish first:

* `Free k`: the account is System-owned and empty (`is_uninitialized`);
* `create`: top up to a required balance, allocate, assign -- the one effect of all three routes of
  `create_pda_account`;
* `put`: a value's bytes as the data of an account.

`Spends p` is what a computation that charges `p` does to the balances: it keeps their sum, debits
nobody but `p`, and `p` only if `p` was System-owned. It composes, so it is stated once for each
operation and carried through a handler.
-/

namespace Txtcel

open Lib Function

namespace Ledger

/-! ## 1. The operations -/

/-- System-owned and empty. -/
def Free (σ : Ledger) (k : Pubkey) : Prop := σ.owner k = systemProgram ∧ σ.data k = []

instance (σ : Ledger) (k : Pubkey) : Decidable (σ.Free k) :=
  inferInstanceAs (Decidable (_ ∧ _))

/-- The missing balance is paid, then the account gets its data and its owner. -/
def create (σ : Ledger) (payer k owner : Pubkey) (required size : Nat) : Ledger :=
  (σ.pay payer k (required - σ.lamports k)).allot k size owner

/-- The bytes of `x` become the data of `k`. -/
def put {α : Type} [Borsh α] (σ : Ledger) (k : Pubkey) (x : α) : Ledger :=
  σ.setData k (Borsh.serialize x)

/-- The program owns `k`, and its data is exactly the value `x`. -/
structure Holds {α : Type} [Borsh α] (σ : Ledger) (R : Runtime) (k : Pubkey) (x : α) : Prop where
  owner : σ.owner k = R.programId
  fits : Borsh.Fits x
  data : σ.data k = Borsh.serialize x

section Simp

variable (σ : Ledger) (p k o : Pubkey) (r n : Nat) {α : Type} [Borsh α] (x : α)

@[simp] theorem put_lamports : (σ.put k x).lamports = σ.lamports := rfl
@[simp] theorem put_owner : (σ.put k x).owner = σ.owner := rfl
@[simp] theorem put_data : (σ.put k x).data = update σ.data k (Borsh.serialize x) := rfl
@[simp] theorem create_owner : (σ.create p k o r n).owner = update σ.owner k o := rfl
@[simp] theorem create_data :
    (σ.create p k o r n).data = update σ.data k (List.replicate n 0) := rfl
@[simp] theorem create_lamports :
    (σ.create p k o r n).lamports = (σ.pay p k (r - σ.lamports k)).lamports := rfl

@[ext] theorem ext' {σ τ : Ledger} (h1 : σ.lamports = τ.lamports) (h2 : σ.data = τ.data)
    (h3 : σ.owner = τ.owner) : σ = τ := by
  cases σ
  cases τ
  cases h1
  cases h2
  cases h3
  rfl

/-- Writing twice keeps the last write. -/
@[simp] theorem setData_setData (a b : Bytes) :
    (σ.setData k a).setData k b = σ.setData k b := by
  ext1 <;> simp

@[simp] theorem put_put {β : Type} [Borsh β] (y : β) : (σ.put k x).put k y = σ.put k y :=
  setData_setData σ k _ _

@[simp] theorem setData_put (a : Bytes) : (σ.setData k a).put k x = σ.put k x :=
  setData_setData σ k _ _

end Simp

/-! ## 2. Who is debited -/

/-- The balances after `p` was charged. -/
structure Spends (p : Pubkey) (σ σ' : Ledger) : Prop where
  total_eq : total σ'.lamports = total σ.lamports
  others : ∀ k, k ≠ p → σ.lamports k ≤ σ'.lamports k
  payer : σ'.lamports p < σ.lamports p → σ.owner p = systemProgram
  /-- Nothing is handed back to the System Program on the way. -/
  back : σ'.owner p = systemProgram → σ.owner p = systemProgram

namespace Spends

variable {p : Pubkey} {σ σ' σ'' : Ledger}

theorem refl (p : Pubkey) (σ : Ledger) : Spends p σ σ :=
  ⟨rfl, fun _ _ => le_refl _, fun h => absurd h (lt_irrefl _), id⟩

theorem trans (h : Spends p σ σ') (h' : Spends p σ' σ'') : Spends p σ σ'' where
  total_eq := h'.total_eq.trans h.total_eq
  others k hk := (h.others k hk).trans (h'.others k hk)
  payer hlt := by
    by_cases h1 : σ'.lamports p < σ.lamports p
    · exact h.payer h1
    · exact h.back (h'.payer (by omega))
  back ho := h.back (h'.back ho)

/-- A payment out of a System-owned account that can afford it. -/
theorem pay {n : Nat} (dst : Pubkey)
    (h : n = 0 ∨ (σ.owner p = systemProgram ∧ n ≤ σ.lamports p)) : Spends p σ (σ.pay p dst n) := by
  rcases h with rfl | ⟨ho, hn⟩
  · rw [pay_zero]
    exact refl p σ
  · refine ⟨total_move _ _ _ _ hn, fun k hk => ?_, fun _ => ho, id⟩
    by_cases hd : k = dst
    · subst hd
      rw [pay_dst _ _ _ _ hk]
      omega
    · rw [pay_other _ _ _ _ _ hk hd]

theorem setData (k : Pubkey) (bs : Bytes) : Spends p σ (σ.setData k bs) :=
  ⟨rfl, fun _ _ => le_refl _, fun h => absurd h (lt_irrefl _), id⟩

theorem put {α : Type} [Borsh α] (k : Pubkey) (x : α) : Spends p σ (σ.put k x) :=
  setData k _

theorem allot {k o : Pubkey} (n : Nat) (ho : o ≠ systemProgram) :
    Spends p σ (σ.allot k n o) := by
  refine ⟨rfl, fun _ _ => le_refl _, fun h => absurd h (lt_irrefl _), fun h => ?_⟩
  by_cases hk : p = k
  · subst hk
    rw [allot_owner, update_self] at h
    exact absurd h ho
  · rwa [allot_owner, update_of_ne hk] at h

end Spends

end Ledger

end Txtcel
