import Txtcel.Spec.Flows
import Txtcel.System.Invariants

/-!
# The charge of a post

What a `FillSlot` moves, account by account, from a store whose rates are bounded and whose shards
are funded. The cap is checked on one computation and the money moves through others; they agree
there, so that `max(amount, rent - lamports)` is the amount.

* `FillSlot.Ok.gain_eq`: what every account but the payer gains;
* `PostCharge`: the charge, with the debit of the payer (`FillSlot.Ok.charge`).
-/

namespace Txtcel

open Lib Function

variable {R : Runtime} {sv : Sysvars} {accounts : List AccountInfo} {σ σ' : Ledger} {j : Pubkey}

/-! ## 1. The gains -/

/-- What a post brings the account `j`. -/
def FillSlot.gain (d : FillSlot) (sv : Sysvars) (σ : Ledger) (j : Pubkey) : Nat :=
  (if j = d.treasury then σ.shortfall (sv.rent 0) d.treasury + d.baseFee sv +
      feeShare d.authorFee d.current.authorFeeCutBps.toNat else 0) +
    (if j = d.author then σ.shortfall (sv.rent 0) d.author +
      (d.authorFee - feeShare d.authorFee d.current.authorFeeCutBps.toNat) else 0) +
    (if j = d.content then d.rent sv - σ.lamports d.content else 0)

/-- The two shards of a post are different accounts, and funded once they are opened. -/
structure FillSlot.Funded (d : FillSlot) (r : Nat) (σ : Ledger) : Prop where
  ne : d.treasury ≠ d.author
  treasury : r ≤ σ.opened r d.treasury
  author : r ≤ σ.opened r d.author

theorem FillSlot.authorFee_lt (d : FillSlot) : d.authorFee < 2 ^ 64 := by
  unfold FillSlot.authorFee
  split
  · omega
  · exact UInt64.toNat_lt _

/-- **What every account but the payer gains.** -/
theorem FillSlot.Ok.gain_eq {d : FillSlot} (h : d.Ok R sv accounts σ σ')
    (hb : d.current.Bounded) (hf : d.Funded (sv.rent 0) σ) (hc : d.content ≠ d.payer)
    (hj : j ≠ d.payer) : σ'.lamports j = σ.lamports j + d.gain sv σ j := by
  have hopen : ∀ i, i ≠ d.payer →
      (σ.openShards R (sv.rent 0) d.payer d.treasury d.author).lamports i =
        if i = d.treasury ∨ i = d.author then σ.opened (sv.rent 0) i else σ.lamports i :=
    fun i hi => Ledger.openShards_lamports hi
  have hcontent : (σ.openShards R (sv.rent 0) d.payer d.treasury d.author).lamports d.content =
      σ.lamports d.content := by
    rw [hopen _ hc, if_neg (not_or.mpr ⟨h.content_ne_treasury, h.content_ne_author⟩)]
  have hstored : (d.stored R sv σ).lamports j =
      (if j = d.treasury ∨ j = d.author then σ.opened (sv.rent 0) j else σ.lamports j) +
        if j = d.content then d.rent sv - σ.lamports d.content else 0 := by
    rw [FillSlot.stored, Ledger.put_lamports, Ledger.create_lamports, Ledger.pay_lamports hj,
      hopen _ hj, hcontent]
  have hle : j = d.treasury ∨ j = d.author → sv.rent 0 ≤ (d.stored R sv σ).lamports j := by
    intro hjs
    rw [hstored, if_pos hjs]
    rcases hjs with rfl | rfl
    · exact Nat.le_add_right_of_le hf.treasury
    · exact Nat.le_add_right_of_le hf.author
  rw [h.post_eq, Ledger.fees_lamports hj (fun hja => hle (.inr hja)) (fun hjt => hle (.inl hjt))
    d.authorFee_lt (rate_le hb.authorFeeCut), hstored, FillSlot.gain]
  by_cases ht : j = d.treasury
  · subst ht
    simp only [hf.ne, h.content_ne_treasury.symm, if_true, if_false, true_or, Ledger.opened]
    omega
  · by_cases ha : j = d.author
    · subst ha
      simp only [ht, h.content_ne_author.symm, if_true, if_false, or_true, Ledger.opened]
      omega
    · simp only [ht, ha, if_false, or_self]
      omega

/-! ## 2. The charge -/

/-- **The charge of a post** by `d.payer`: the cap holds, each gain is exact, and the payer pays the
    gains and nothing more. -/
structure PostCharge (sv : Sysvars) (d : FillSlot) (base fee : Nat) (σ σ' : Ledger) : Prop where
  cap : base + fee ≤ d.post.maxFee.toNat
  treasury : σ'.lamports d.treasury = σ.lamports d.treasury + σ.shortfall (sv.rent 0) d.treasury +
    (base + feeShare fee d.current.authorFeeCutBps.toNat)
  author : σ'.lamports d.author = σ.lamports d.author + σ.shortfall (sv.rent 0) d.author +
    (fee - feeShare fee d.current.authorFeeCutBps.toNat)
  content : σ'.lamports d.content = max (σ.lamports d.content) (d.rent sv)
  payer : σ'.lamports d.payer + (base + fee + (d.rent sv - σ.lamports d.content) +
    σ.shortfall (sv.rent 0) d.treasury + σ.shortfall (sv.rent 0) d.author) = σ.lamports d.payer
  others : ∀ j, j ≠ d.payer → j ≠ d.treasury → j ≠ d.author → j ≠ d.content →
    σ'.lamports j = σ.lamports j

/-- The gains add up to what the payer is charged. -/
theorem FillSlot.total_gain {d : FillSlot} (hb : d.current.Bounded) :
    total (d.gain sv σ) = d.baseFee sv + d.authorFee + (d.rent sv - σ.lamports d.content) +
      σ.shortfall (sv.rent 0) d.treasury + σ.shortfall (sv.rent 0) d.author := by
  have hle : feeShare d.authorFee d.current.authorFeeCutBps.toNat ≤ d.authorFee :=
    feeShare_le (rate_le hb.authorFeeCut)
  show total (fun j => _) = _
  unfold FillSlot.gain
  rw [total_add, total_add, total_single, total_single, total_single]
  omega

theorem FillSlot.Ok.charge {d : FillSlot} (h : d.Ok R sv accounts σ σ') (hS : OwnKeys R accounts)
    (hb : d.current.Bounded) (hf : d.Funded (sv.rent 0) σ) :
    PostCharge sv d (d.baseFee sv) d.authorFee σ σ' := by
  have hnt : d.treasury ≠ d.payer := hS.ne h.shards.treasury_addr.isPda _ h.signer
  have hna : d.author ≠ d.payer := hS.ne h.shards.author_addr.isPda _ h.signer
  have hnc : d.content ≠ d.payer := hS.ne h.content_addr.isPda _ h.signer
  refine ⟨h.fee_le, ?_, ?_, ?_, ?_, ?_⟩
  · rw [h.gain_eq hb hf hnc hnt, FillSlot.gain, if_pos rfl, if_neg hf.ne,
      if_neg h.content_ne_treasury.symm]
    omega
  · rw [h.gain_eq hb hf hnc hna, FillSlot.gain, if_neg hf.ne.symm, if_pos rfl,
      if_neg h.content_ne_author.symm]
    omega
  · rw [h.gain_eq hb hf hnc hnc, FillSlot.gain, if_neg h.content_ne_treasury,
      if_neg h.content_ne_author, if_pos rfl]
    omega
  · have hzero : d.gain sv σ d.payer = 0 := by
      rw [FillSlot.gain, if_neg hnt.symm, if_neg hna.symm, if_neg hnc.symm]
    have hpays := total_gains hzero (fun j hj => h.gain_eq hb hf hnc hj) h.spends.total_eq
    rwa [FillSlot.total_gain hb] at hpays
  · intro j hp ht ha hc
    rw [h.gain_eq hb hf hnc hp, FillSlot.gain, if_neg ht, if_neg ha, if_neg hc, Nat.add_zero]

end Txtcel
