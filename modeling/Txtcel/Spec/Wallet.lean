import Txtcel.Spec.Flows
import Txtcel.Spec.Success

/-!
# A payer that can pay

`Wallet σ p n`: the account `p` can be charged `n` lamports in all. Each operation that charges it
succeeds when its own price is part of `n`, and leaves it able to pay the rest. So a handler that is
known to pass its checks succeeds when the payer can pay the sum of the prices.
-/

namespace Txtcel

open Lib Exec Borsh Function

variable {R : Runtime} {sv : Sysvars} {σ : Ledger} {p a sys : AccountInfo} {k : Pubkey} {m n : Nat}

/-- A signer without data, System-owned, that can be charged `n`; all lamports together fit. -/
structure Wallet (σ : Ledger) (p : AccountInfo) (n : Nat) : Prop where
  signer : p.isSigner = true
  writable : p.isWritable = true
  empty : σ.data p.key = []
  owner : σ.owner p.key = systemProgram
  enough : n ≤ σ.lamports p.key
  supply : total σ.lamports < 2 ^ 64

/-! ## 1. The prices -/

namespace Ledger

/-- What collecting a fee costs. -/
def collectPrice (σ : Ledger) (r n : Nat) (s : Pubkey) : Nat :=
  if n = 0 then 0 else max n (r - σ.lamports s)

/-- What paying out a split fee costs. -/
def splitPrice (σ : Ledger) (r n cut : Nat) (p au ts : Pubkey) : Nat :=
  let (authorReceives, platformCut) := computeFeeSplit n cut
  σ.collectPrice r platformCut ts +
    (σ.collect r platformCut p ts).collectPrice r authorReceives au

theorem collect_eq_pay (r n : Nat) (p s : Pubkey) :
    σ.collect r n p s = σ.pay p s (σ.collectPrice r n s) := by
  unfold collect collectPrice
  split
  · rw [pay_zero]
  · rfl

end Ledger

/-! ## 2. Charging -/

namespace Wallet

theorem mono (h : Wallet σ p n) (hm : m ≤ n) : Wallet σ p m :=
  { h with enough := hm.trans h.enough }

theorem total_pay {q : Pubkey} (h : n ≤ σ.lamports q) :
    total (σ.pay q k n).lamports = total σ.lamports := by
  rw [Ledger.pay, total_move _ _ _ _ h]

/-- **One price of several.** -/
theorem canPay (h : Wallet σ p n) (ha : a.isWritable = true) (hm : m ≤ n) : CanPay σ p a m where
  signer := h.signer
  writable := h.writable
  dst_writable := ha
  empty := h.empty
  enough := hm.trans h.enough
  owner := .inr h.owner
  room := by
    have hle := le_total (σ.pay p.key a.key m).lamports a.key
    rw [total_pay (hm.trans h.enough)] at hle
    exact hle.trans_lt h.supply

/-- ... and the rest. -/
theorem pay (h : Wallet σ p (m + n)) (hne : k ≠ p.key) : Wallet (σ.pay p.key k m) p n where
  signer := h.signer
  writable := h.writable
  empty := h.empty
  owner := h.owner
  enough := by
    have := h.enough
    rw [Ledger.pay_src _ _ _ _ hne]
    omega
  supply := by
    have := h.enough
    rw [total_pay (by omega)]
    exact h.supply

theorem setData {bs : Bytes} (h : Wallet σ p n) (hne : k ≠ p.key) : Wallet (σ.setData k bs) p n :=
  { h with empty := (update_of_ne hne.symm _ _).trans h.empty }

theorem put {α : Type} [Borsh α] {x : α} (h : Wallet σ p n) (hne : k ≠ p.key) :
    Wallet (σ.put k x) p n := h.setData hne

theorem allot {o : Pubkey} {size : Nat} (h : Wallet σ p n) (hne : k ≠ p.key) :
    Wallet (σ.allot k size o) p n :=
  { h with
    empty := (update_of_ne hne.symm _ _).trans h.empty
    owner := (update_of_ne hne.symm _ _).trans h.owner }

theorem openShard {r : Nat} (h : Wallet σ p (σ.shortfall r k + n)) (hne : k ≠ p.key) :
    Wallet (σ.openShard R r p.key k) p n := by
  unfold Ledger.openShard
  unfold Ledger.shortfall at h
  split
  · rename_i hf
    rw [if_pos hf] at h
    exact (h.pay hne).allot hne
  · rename_i hf
    rw [if_neg hf, Nat.zero_add] at h
    exact h

theorem collect {r c : Nat} (h : Wallet σ p (σ.collectPrice r c k + n)) (hne : k ≠ p.key) :
    Wallet (σ.collect r c p.key k) p n := by
  rw [Ledger.collect_eq_pay]
  exact h.pay hne

end Wallet

/-! ## 3. What succeeds -/

/-- A fee that is skipped when it is zero is collected all the same. -/
theorem onlyIf_collectFeeToShard (c : Nat) :
    onlyIf (0 < c) (collectFeeToShard sv c p a) = collectFeeToShard sv c p a := by
  cases c with
  | zero => rfl
  | succ c => exact if_pos (Nat.succ_pos c)

theorem onlyIf_transferFeeSplit (c cut : Nat) {ts : AccountInfo} :
    onlyIf (0 < c) (transferFeeSplit sv c cut p a ts) = transferFeeSplit sv c cut p a ts := by
  cases c with
  | zero => simp [onlyIf, transferFeeSplit, computeFeeSplit, saturatingMul128]
  | succ c => exact if_pos (Nat.succ_pos c)

/-- The program signs for an address with the seeds and the bump that derive it. -/
theorem signs_of_derive {q : Pda} {b : UInt8} (h : q.derive R = some (a.key, b)) :
    signs R [q.seeds ++ [[b]]] a = true := by
  simp [signs, R.findProgramAddress_spec h]

theorem createPdaAccount_eq {space : Nat} {q : Pda} {b : UInt8} (hne : a.key ≠ p.key)
    (hq : q.derive R = some (a.key, b)) (hsys : sys.key = systemProgram) (hf : σ.Free a.key)
    (hw : a.isWritable = true) (hp : Wallet σ p (sv.rent space - σ.lamports a.key + n)) :
    createPdaAccount R sv p a sys space (q.seeds ++ [[b]]) σ =
      .ok ((), σ.create p.key a.key R.programId (sv.rent space) space) :=
  (createPdaAccount_iff hne).mpr
    ⟨hsys, hf, signs_of_derive hq, hw, fun _ => hp.canPay hw (by omega), rfl⟩

/-- A shard that is open stays as it is. -/
theorem ensureShardInitialized_open {p : AccountInfo} {seeds : List Bytes} {b : UInt8}
    (h : ¬ σ.Free a.key) : ensureShardInitialized R sv p a sys seeds b σ = .ok ((), σ) := by
  rw [ensureShardInitialized, bind_of_ok (isUninitialized_eq_ok.mpr ⟨rfl, rfl⟩), onlyIf,
    if_neg (by simpa using h)]
  rfl

theorem ensureShardInitialized_eq {q : Pda} {b : UInt8} (hne : a.key ≠ p.key)
    (hq : q.derive R = some (a.key, b)) (hsys : sys.key = systemProgram)
    (hw : a.isWritable = true) (hp : Wallet σ p (σ.shortfall (sv.rent 0) a.key + n)) :
    ensureShardInitialized R sv p a sys q.seeds b σ =
      .ok ((), σ.openShard R (sv.rent 0) p.key a.key) := by
  rw [Ledger.openShard]
  by_cases hf : σ.Free a.key
  · rw [Ledger.shortfall, if_pos hf] at hp
    rw [if_pos hf, ensureShardInitialized, bind_of_ok (isUninitialized_eq_ok.mpr ⟨rfl, rfl⟩), onlyIf,
      if_pos (decide_eq_true hf)]
    exact createPdaAccount_eq hne hq hsys hf hw hp
  · rw [if_neg hf]
    exact ensureShardInitialized_open hf

theorem collectFeeToShard_eq {c : Nat} (hw : a.isWritable = true)
    (hp : Wallet σ p (σ.collectPrice (sv.rent 0) c a.key + n)) :
    collectFeeToShard sv c p a σ = .ok ((), σ.collect (sv.rent 0) c p.key a.key) := by
  refine collectFeeToShard_iff.mpr ⟨fun h0 => ?_, rfl⟩
  refine hp.canPay hw ?_
  rw [Ledger.collectPrice, if_neg h0]
  omega

theorem transferFeeSplit_eq {c cut : Nat} {ts : AccountInfo} (hts : ts.key ≠ p.key)
    (hw : a.isWritable = true) (hwt : ts.isWritable = true)
    (hp : Wallet σ p (σ.splitPrice (sv.rent 0) c cut p.key a.key ts.key + n)) :
    transferFeeSplit sv c cut p a ts σ =
      .ok ((), σ.split (sv.rent 0) c cut p.key a.key ts.key) := by
  unfold transferFeeSplit Ledger.split
  unfold Ledger.splitPrice at hp
  generalize computeFeeSplit c cut = parts at hp ⊢
  obtain ⟨authorReceives, platformCut⟩ := parts
  rw [Nat.add_assoc] at hp
  simp only [onlyIf_collectFeeToShard]
  rw [bind_of_ok (collectFeeToShard_eq hwt hp)]
  exact collectFeeToShard_eq hw (hp.collect hts)

end Txtcel
