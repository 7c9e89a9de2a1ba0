import Txtcel.Processor.Follows
import Txtcel.Spec.Cells

/-!
# What makes a check or a loader succeed

The other half of the inversions: a loader succeeds exactly where the account holds what it looks
for.
-/

namespace Txtcel

open Lib Exec Borsh Function

variable {R : Runtime} {sv : Sysvars} {σ σ' : Ledger} {a : AccountInfo}

/-! ## 1. Loaders -/

theorem loadThread_iff {x : ThreadNode} :
    loadThread R a σ = .ok (x, σ') ↔ σ.Holds R a.key x ∧ x.tag = tagThread ∧ σ' = σ := by
  refine ⟨loadThread_ok, ?_⟩
  rintro ⟨h, ht, rfl⟩
  simp only [loadThread, bind_eq_ok, assertOwnedBy_eq_ok, dataOf_eq_ok, orFail_eq_ok, failIf_eq_ok,
    pure_eq_ok, tryFromSlice_eq_some, and_assoc, true_and, existsAndEq, exists_and_left,
    exists_const, ne_eq, not_not]
  exact ⟨h.owner, h.fits, h.data, ht, trivial⟩

theorem loadFollowRegistry_iff {x : FollowRegistry} (ho : σ.owner a.key = R.programId) :
    loadFollowRegistry a σ = .ok (x, σ') ↔
      σ.Holds R a.key x ∧ x.tag = tagFollowRegistry ∧ σ' = σ := by
  refine ⟨loadFollowRegistry_ok ho, ?_⟩
  rintro ⟨h, ht, rfl⟩
  simp only [loadFollowRegistry, bind_eq_ok, dataOf_eq_ok, orFail_eq_ok, failIf_eq_ok, pure_eq_ok,
    tryFromSlice_eq_some, and_assoc, true_and, existsAndEq, exists_and_left, exists_const, ne_eq,
    not_not]
  exact ⟨h.fits, h.data, ht, trivial⟩

theorem loadBoundFollowerShard_iff {x : FollowerShard} {t : Pubkey} {i : UInt8} :
    loadBoundFollowerShard R a t i σ = .ok (x, σ') ↔
      σ.Holds R a.key x ∧ x.tag = tagFollowerShard ∧ x.thread = t ∧ x.shard = i ∧ σ' = σ := by
  refine ⟨loadBoundFollowerShard_ok, ?_⟩
  rintro ⟨h, htag, ht, hi, rfl⟩
  simp only [loadBoundFollowerShard, loadFollowerShard, bind_eq_ok, assertOwnedBy_eq_ok,
    dataOf_eq_ok, orFail_eq_ok, failIf_eq_ok, pure_eq_ok, tryFromSlice_eq_some, and_assoc,
    true_and, existsAndEq, exists_and_left, exists_const, ne_eq, not_not, not_or]
  exact ⟨h.owner, h.fits, h.data, htag, ht, hi, trivial⟩

/-! ## 2. Payments and creations -/

/-- What a payment of `n` from `p` to `d` through the System Program needs. -/
structure CanPay (σ : Ledger) (p d : AccountInfo) (n : Nat) : Prop where
  signer : p.isSigner = true
  writable : p.isWritable = true
  dst_writable : d.isWritable = true
  empty : σ.data p.key = []
  enough : n ≤ σ.lamports p.key
  owner : n = 0 ∨ σ.owner p.key = systemProgram
  room : (σ.pay p.key d.key n).lamports d.key < 2 ^ 64

theorem invokeTransfer_iff {p d : AccountInfo} {n : Nat} {u : Unit} :
    invokeTransfer p d n σ = .ok (u, σ') ↔ CanPay σ p d n ∧ σ' = σ.pay p.key d.key n := by
  simp only [invokeTransfer, SystemProgram.transfer, bind_eq_ok, require_eq_ok, get_eq_ok,
    modify_eq_ok, and_assoc, true_and, existsAndEq, exists_and_left, exists_const]
  constructor
  · rintro ⟨hs, hw, hd, he, hn, ho, hr, rfl⟩
    exact ⟨⟨hs, hw, hd, he, hn, ho, hr⟩, rfl⟩
  · rintro ⟨⟨hs, hw, hd, he, hn, ho, hr⟩, rfl⟩
    exact ⟨hs, hw, hd, he, hn, ho, hr, rfl⟩

theorem invokeCreateAccount_iff {p t : AccountInfo} {n space : Nat} {seeds : List (List Bytes)}
    (hne : t.key ≠ p.key) :
    invokeCreateAccount R p t n space R.programId seeds σ = .ok ((), σ') ↔
      σ.lamports t.key = 0 ∧ σ.Free t.key ∧ signs R seeds t = true ∧ t.isWritable = true ∧
        CanPay σ p t n ∧ σ' = (σ.pay p.key t.key n).allot t.key space R.programId := by
  simp only [invokeCreateAccount, SystemProgram.createAccount, SystemProgram.allocate,
    SystemProgram.assign, SystemProgram.transfer, bind_eq_ok, require_eq_ok, get_eq_ok,
    modify_eq_ok, and_assoc, true_and, existsAndEq, exists_and_left, exists_const,
    Ledger.setOwner_data, Ledger.setOwner_lamports, Ledger.setOwner_owner, Ledger.setData_data,
    Ledger.setData_lamports, Ledger.setData_owner, update_of_ne hne.symm]
  constructor
  · intro h
    obtain ⟨hs, hw, hsig, htw, h0, hd, ho, -, he, hn, hpo, hr, rfl⟩ := h
    exact ⟨h0, ⟨ho, hd⟩, hsig, htw, ⟨hs, hw, htw, he, hn, hpo, hr⟩, rfl⟩
  · intro h
    obtain ⟨h0, ⟨ho, hd⟩, hsig, htw, ⟨hs, hw, -, he, hn, hpo, hr⟩, rfl⟩ := h
    exact ⟨hs, hw, hsig, htw, h0, hd, ho, .inl ho, he, hn, hpo, hr, rfl⟩

/-- **When a creation succeeds**: at a free address that the program can sign for, if the payer can
    pay what is missing. -/
theorem createPdaAccount_iff {p t sys : AccountInfo} {space : Nat} {seeds : List Bytes}
    (hne : t.key ≠ p.key) :
    createPdaAccount R sv p t sys space seeds σ = .ok ((), σ') ↔
      sys.key = systemProgram ∧ σ.Free t.key ∧ signs R [seeds] t = true ∧ t.isWritable = true ∧
        (σ.lamports t.key = 0 ∨ σ.lamports t.key < sv.rent space →
          CanPay σ p t (sv.rent space - σ.lamports t.key)) ∧
        σ' = σ.create p.key t.key R.programId (sv.rent space) space := by
  simp only [createPdaAccount, bind_eq_ok (x := assertSystemProgram _),
    bind_eq_ok (x := lamportsOf _), assertSystemProgram_eq_ok, lamportsOf_eq_ok, and_assoc,
    true_and, existsAndEq, exists_and_left, exists_const]
  refine and_congr_right fun hsys => ?_
  rw [ite_eq_ok, invokeCreateAccount_iff hne, Ledger.create]
  by_cases h0 : σ.lamports t.key = 0
  · simp only [h0, true_and, not_true_eq_false, false_and, or_false, true_or, forall_const,
      Nat.sub_zero]
  · simp only [h0, false_and, not_false_eq_true, true_and, false_or, bind_eq_ok, onlyIf_eq_ok,
      invokeTransfer_iff, invokeAllocate, invokeAssign, SystemProgram.allocate,
      SystemProgram.assign, require_eq_ok, get_eq_ok, modify_eq_ok, and_assoc, existsAndEq,
      exists_and_left, exists_const, Ledger.Free]
    by_cases hlt : σ.lamports t.key < sv.rent space
    · simp only [hlt, true_and, not_true_eq_false, false_and, or_false, forall_const, existsAndEq,
        exists_and_left, Ledger.pay_data, Ledger.pay_owner, Ledger.setData_owner, and_assoc]
      constructor
      · intro h
        obtain ⟨hpay, hsig, hw, hd, ho, -, -, -, rfl⟩ := h
        exact ⟨ho, hd, hsig, hw, hpay, rfl⟩
      · intro h
        obtain ⟨ho, hd, hsig, hw, hpay, rfl⟩ := h
        exact ⟨hpay, hsig, hw, hd, ho, hsig, hw, .inl ho, rfl⟩
    · simp only [hlt, false_and, not_false_eq_true, true_and, false_or, existsAndEq,
        Nat.sub_eq_zero_of_le (Nat.le_of_not_lt hlt), Ledger.pay_zero, Ledger.setData_owner,
        false_implies]
      constructor
      · intro h
        obtain ⟨hsig, hw, hd, ho, -, -, -, rfl⟩ := h
        exact ⟨ho, hd, hsig, hw, rfl⟩
      · intro h
        obtain ⟨ho, hd, hsig, hw, rfl⟩ := h
        exact ⟨hsig, hw, hd, ho, hsig, hw, .inl ho, rfl⟩

/-- Topping an account up to `n`. -/
theorem topUp_iff {p t : AccountInfo} {n : Nat} {u : Unit} :
    (lamportsOf t >>= fun current => onlyIf (current < n) (invokeTransfer p t (n - current))) σ =
        .ok (u, σ') ↔
      (σ.lamports t.key < n → CanPay σ p t (n - σ.lamports t.key)) ∧
        σ' = σ.pay p.key t.key (n - σ.lamports t.key) := by
  simp only [bind_eq_ok, lamportsOf_eq_ok, and_assoc, true_and, existsAndEq, onlyIf_eq_ok,
    invokeTransfer_iff]
  by_cases hlt : σ.lamports t.key < n
  · simp [hlt]
  · have hz : n - σ.lamports t.key = 0 := by omega
    simp [hlt, hz]

theorem ensureRentExempt_iff {p t : AccountInfo} {n : Nat} {u : Unit} :
    ensureRentExempt sv p t n σ = .ok (u, σ') ↔
      (σ.lamports t.key < sv.rent n → CanPay σ p t (sv.rent n - σ.lamports t.key)) ∧
        σ' = σ.pay p.key t.key (sv.rent n - σ.lamports t.key) := by
  rw [← topUp_iff (u := u), ensureRentExempt]
  simp only [bind_eq_ok, lamportsOf_eq_ok, and_assoc, true_and, existsAndEq]
  by_cases hle : sv.rent n ≤ σ.lamports t.key
  · simp [hle, onlyIf, Nat.not_lt.mpr hle]
  · have hpos : 0 < sv.rent n - σ.lamports t.key := by omega
    simp [hle, onlyIf, hpos, Nat.lt_of_not_le hle]

theorem collectFeeToShard_iff {n : Nat} {p s : AccountInfo} {u : Unit} :
    collectFeeToShard sv n p s σ = .ok (u, σ') ↔
      (n ≠ 0 → CanPay σ p s (max n (sv.rent 0 - σ.lamports s.key))) ∧
        σ' = σ.collect (sv.rent 0) n p.key s.key := by
  rw [collectFeeToShard, ite_eq_ok, Ledger.collect]
  by_cases h0 : n = 0
  · simp [h0]
  · have hpos : 0 < max n (sv.rent 0 - σ.lamports s.key) := by omega
    simp only [h0, false_and, not_false_eq_true, true_and, false_or, bind_eq_ok, lamportsOf_eq_ok,
      and_assoc, existsAndEq, onlyIf_eq_ok, hpos, not_true_eq_false, or_false, invokeTransfer_iff,
      ne_eq, forall_const, if_false]

/-! ## 3. Lamports that leave an account of the program -/

/-- The shape of the moves without the System Program: the amount arrives, if it fits. -/
theorem moveExcess_iff {a b : AccountInfo} {r n : Nat} {u : Unit} {e : ProgramError}
    (hn : n = σ.lamports a.key - r) :
    (onlyIf (0 < n) (do
      modify (·.setLamports a.key r)
      let received ← lamportsOf b
      let sum ← orFail (checkedAdd64 received n) e
      modify (·.setLamports b.key sum)) : Handler Unit) σ = .ok (u, σ') ↔
      (r < σ.lamports a.key → (σ.pay a.key b.key n).lamports b.key < 2 ^ 64) ∧
        σ' = σ.pay a.key b.key n := by
  subst hn
  by_cases hlt : r < σ.lamports a.key
  · have hpos : 0 < σ.lamports a.key - r := by omega
    have hr : σ.lamports a.key - (σ.lamports a.key - r) = r := by omega
    simp only [onlyIf_eq_ok, hpos, hlt, true_and, not_true_eq_false, false_and, or_false,
      bind_eq_ok, modify_eq_ok, lamportsOf_eq_ok, orFail_eq_ok, checkedAdd64_eq_some, and_assoc,
      existsAndEq, exists_and_left, exists_const, forall_const, Ledger.pay, hr, update_self,
      Ledger.setLamports]
  · have hz : σ.lamports a.key - r = 0 := by omega
    simp [onlyIf_eq_ok, hz, hlt]

theorem sweepShardExcess_iff {shard recipient : AccountInfo} {r : Nat} {u : Unit} :
    sweepShardExcess shard recipient r σ = .ok (u, σ') ↔
      (r < σ.lamports shard.key →
        (σ.pay shard.key recipient.key (σ.lamports shard.key - r)).lamports recipient.key < 2 ^ 64) ∧
        σ' = σ.pay shard.key recipient.key (σ.lamports shard.key - r) := by
  simp only [sweepShardExcess, bind_eq_ok (x := lamportsOf shard), lamportsOf_eq_ok, and_assoc,
    true_and, existsAndEq]
  exact moveExcess_iff rfl

theorem refundExcess_iff {reg user : AccountInfo} {r : Nat} {u : Unit} :
    refundExcess reg user r σ = .ok (u, σ') ↔
      (r < σ.lamports reg.key →
        (σ.pay reg.key user.key (σ.lamports reg.key - r)).lamports user.key < 2 ^ 64) ∧
        σ' = σ.pay reg.key user.key (σ.lamports reg.key - r) := by
  simp only [refundExcess, bind_eq_ok (x := lamportsOf reg), lamportsOf_eq_ok, and_assoc,
    true_and, existsAndEq]
  have hpos : (r < σ.lamports reg.key) ↔ 0 < σ.lamports reg.key - r := by omega
  have hmove := @moveExcess_iff σ σ' reg user r (σ.lamports reg.key - r) u
    ProtocolError.invalidAccountData.toProgramError rfl
  simp only [onlyIf, ← hpos] at hmove ⊢
  exact hmove

theorem closeProgramAccount_iff {account recipient : AccountInfo} {u : Unit}
    (hne : recipient.key ≠ account.key) :
    closeProgramAccount account recipient σ = .ok (u, σ') ↔
      σ.lamports recipient.key + σ.lamports account.key < 2 ^ 64 ∧
        σ' = (σ.pay account.key recipient.key (σ.lamports account.key)).allot
          account.key 0 systemProgram := by
  constructor
  · intro h
    refine ⟨?_, closeProgramAccount_ok hne h⟩
    simp only [closeProgramAccount, bind_eq_ok, lamportsOf_eq_ok, orFail_eq_ok,
      checkedAdd64_eq_some, and_assoc, true_and, existsAndEq, exists_and_left] at h
    exact h.1
  · intro h
    obtain ⟨hsum, rfl⟩ := h
    simp only [closeProgramAccount, bind_eq_ok, lamportsOf_eq_ok, orFail_eq_ok, modify_eq_ok,
      dataOf_eq_ok, resize_eq_ok, checkedAdd64_eq_some, and_assoc, true_and, existsAndEq,
      exists_and_left, exists_const]
    refine ⟨hsum, ?_⟩
    ext1
    · simp [Ledger.pay, hne, update_comm hne]
    · simp [Ledger.allot]
    · simp [Ledger.allot]

end Txtcel
