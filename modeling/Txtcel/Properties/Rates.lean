import Txtcel.Properties.Revenue

/-!
# Fee splits are exact at every rate in force

`compute_fee_split` multiplies in `u128` with saturation, divides, casts to `u64` and subtracts with
saturation. At an arbitrary `u32` rate the parts need not add up. The rates a run can put in force
are at most `MAX_FEE_CUT_BPS`, and there none of these limits is reached.

* `ExactSplit`: what the split does at a rate, for every amount of a `u64`;
* `fee_splits_exact`: all four rates of a reachable settings account split exactly.
-/

namespace Txtcel

variable {R : Runtime} {Ok : Ledger → Event → Ledger → Prop} {σ : Ledger} {cut cut' : Nat}

/-! ## 1. One rate -/

/-- The split of every amount at the rate `cut`. -/
structure ExactSplit (cut : Nat) : Prop where
  /-- The multiplication does not saturate. -/
  product : ∀ amount : UInt64, saturatingMul128 amount.toNat cut = amount.toNat * cut
  /-- The cast to `u64` cuts nothing off. -/
  cast : ∀ amount : UInt64, amount.toNat * cut / 10000 % 2 ^ 64 = amount.toNat * cut / 10000
  platform : ∀ amount : UInt64,
    (computeFeeSplit amount.toNat cut).2 = amount.toNat * cut / 10000
  sum : ∀ amount : UInt64,
    (computeFeeSplit amount.toNat cut).1 + (computeFeeSplit amount.toNat cut).2 = amount.toNat
  half : ∀ amount : UInt64, 2 * (computeFeeSplit amount.toNat cut).2 ≤ amount.toNat
  mono : ∀ a b : UInt64, a ≤ b →
    (computeFeeSplit a.toNat cut).2 ≤ (computeFeeSplit b.toNat cut).2

theorem exactSplit (h : cut ≤ 5000) : ExactSplit cut := by
  have hlt : ∀ amount : UInt64, amount.toNat < 2 ^ 64 := fun amount => amount.toNat_lt
  have hle : ∀ amount : UInt64, feeShare amount.toNat cut ≤ amount.toNat :=
    fun _ => feeShare_le (by omega)
  have hsplit : ∀ amount : UInt64, computeFeeSplit amount.toNat cut =
      (amount.toNat - feeShare amount.toNat cut, feeShare amount.toNat cut) :=
    fun amount => computeFeeSplit_eq (hlt amount) (by omega)
  refine ⟨fun amount => ?_, fun amount => ?_, fun amount => ?_, fun amount => ?_,
    fun amount => ?_, fun a b hab => ?_⟩
  · exact saturatingMul128_eq (hlt amount) (by omega)
  · exact Nat.mod_eq_of_lt (Nat.lt_of_le_of_lt (hle amount) (hlt amount))
  · rw [hsplit]
    rfl
  · rw [hsplit]
    exact Nat.sub_add_cancel (hle amount)
  · rw [hsplit]
    exact two_mul_feeShare_le h
  · rw [hsplit, hsplit]
    exact feeShare_mono (UInt64.le_iff_toNat_le.mp hab) (le_refl _)

/-- A higher rate takes no less. -/
theorem split_mono_cut (hle : cut ≤ cut') (h : cut' ≤ 5000) (amount : UInt64) :
    (computeFeeSplit amount.toNat cut).2 ≤ (computeFeeSplit amount.toNat cut').2 := by
  rw [(exactSplit (hle.trans h)).platform, (exactSplit h).platform]
  exact feeShare_mono (le_refl _) hle

/-! ## 2. Every rate in force -/

/-- The four rates of the settings. -/
def ProgramSettings.rates (s : ProgramSettings) : List UInt32 :=
  [s.baseFeeBps, s.authorFeeCutBps, s.entryCutBps, s.likeCutBps]

theorem ProgramSettings.Bounded.rate_le {s : ProgramSettings} (h : s.Bounded) {b : UInt32}
    (hb : b ∈ s.rates) : b ≤ maxFeeCutBps := by
  simp only [ProgramSettings.rates, List.mem_cons, List.not_mem_nil, or_false] at hb
  rcases hb with rfl | rfl | rfl | rfl
  · exact h.baseFee
  · exact h.authorFeeCut
  · exact h.entryCut
  · exact h.likeCut

/-- **Every reachable setting splits exactly**: no rate is above `MAX_FEE_CUT_BPS`, whatever
    instructions set it, so at each of them every split is exact and monotone in the amount and the
    rate, and the base fee of any rent is at most half of it. -/
theorem fee_splits_exact {k : Pubkey} {s : ProgramSettings} (h : (program R).Reach Ok σ)
    (hk : σ.cell R k = .holds (.settings s)) :
    (∀ b ∈ s.rates, b ≤ maxFeeCutBps) ∧ (∀ b ∈ s.rates, ExactSplit b.toNat) ∧
      (∀ b ∈ s.rates, ∀ cut ≤ b.toNat, ∀ amount : UInt64,
        (computeFeeSplit amount.toNat cut).2 ≤ (computeFeeSplit amount.toNat b.toNat).2) ∧
      ∀ rent : UInt64, baseFeeOf rent.toNat s.baseFeeBps.toNat =
          rent.toNat * s.baseFeeBps.toNat / 10000 ∧
        2 * baseFeeOf rent.toNat s.baseFeeBps.toNat ≤ rent.toNat := by
  have hb := reach_bounded h hk
  have hmax : ∀ b ∈ s.rates, b.toNat ≤ 5000 := fun b hbs =>
    UInt32.le_iff_toNat_le.mp (hb.rate_le hbs)
  refine ⟨fun b hbs => hb.rate_le hbs, fun b hbs => exactSplit (hmax b hbs),
    fun b hbs cut hle amount => split_mono_cut hle (hmax b hbs) amount, fun rent => ?_⟩
  have hbase := hmax s.baseFeeBps (by simp [ProgramSettings.rates])
  rw [baseFeeOf_eq rent.toNat_lt (by omega)]
  exact ⟨rfl, two_mul_feeShare_le hbase⟩

/-- The rates of the local platform. -/
theorem fee_splits_exact_local : ∃ s : ProgramSettings,
    (afterCalls localnet Local.history Local.genesis).cell localnet (Local.addressOf .settings) =
      .holds (.settings s) ∧ ∀ b ∈ s.rates, ExactSplit b.toNat := by
  have hsome : ((afterCalls localnet Local.history Local.genesis).settingsAt localnet
      (Local.addressOf .settings)).isSome := by decide +kernel
  obtain ⟨s, hs⟩ := Option.isSome_iff_exists.mp hsome
  have hk := settingsAt_eq_some.mp hs
  exact ⟨s, hk, (fee_splits_exact (Local.history_reach Local.history_steady) hk).2.1⟩

end Txtcel
