import Txtcel.Properties.Revenue
import Txtcel.System.Addresses

/-!
# What a post costs

Over runs with a fixed rent the shards a post charges are funded: they are free, or initialized and
then never below their rent minimum. So every successful post moves exactly its `PostCharge`.

* `reach_opened`: the shards of a reachable store, once they are opened;
* `post_charge`: the charge of every successful post from a reachable store.
-/

namespace Txtcel

open Lib Function

variable {R : Runtime} {sv : Sysvars} {accounts : List AccountInfo} {σ σ' : Ledger}
  {K : Set Pubkey} {rent : Nat → UInt64} {j : Pubkey}

/-! ## 1. The shards of a reachable store -/

/-- A fee shard of the program is free or initialized, and then funded. -/
theorem reach_opened {p : Pda} {r : Nat} (hK : R.CollisionFree K)
    (h : (program R).Reach (Steady rent K) σ) (hp : p.IsFeeShard) (ha : R.HasAddress p j)
    (ht : ∀ t, p.thread? = some t → (σ.cell R).Live t) (hr : r = (rent 0).toNat) :
    r ≤ σ.opened r j := by
  subst hr
  have hin : (program R).Reach (Within K) σ := h.mono fun _ _ _ hok => hok.2
  have hkeys := hp.keys_subset fun t h => reach_live_within hin (ht t h)
  rcases reach_stored hK hin ha hkeys with hf | hst
  · exact Ledger.le_opened_of_free hf
  · have hv : σ.cell R j = .vault := by
      generalize σ.cell R j = x at hst
      cases p with
      | treasuryShard i => cases hst; rfl
      | authorFee t i => cases hst; rfl
      | _ => exact False.elim hp
    have hfix : (program R).Reach (FixedRent rent) σ := h.mono fun _ _ _ hok => hok.1
    exact Nat.le_add_right_of_le (reach_funded hfix ha.isPda hv)

/-! ## 2. Every successful post -/

/-- **Every successful post is charged exactly**: the base fee and the message fee that were checked
    against `max_fee` are what the payer pays, on top of the missing rent of the accounts the post
    creates, and the treasury and the author receive exactly their shares. -/
theorem post_charge {kind : UInt16} {body : Bytes} {candidates : List CandidateSlot}
    {ti : UInt16} {ai : UInt8} {rs : UInt32} {rp : UInt8} {maxFee : UInt64}
    (hK : R.CollisionFree K) (h : (program R).Reach (Steady rent K) σ)
    (hrent : sv.minimumBalance = rent) (hs : (program R).step σ
      (.call sv accounts (.fillSlot kind body candidates ti ai rs rp maxFee)) σ') :
    ∃ d : FillSlot, d.Ok R sv accounts σ σ' ∧ d.post = ⟨kind, body, rs, rp, maxFee⟩ ∧
      d.treasuryIdx = ti ∧ d.authorIdx = ai ∧ d.candidate ∈ candidates ∧
      PostCharge sv d
        (feeShare (sv.rent (ContentNode.size body.length)) d.current.baseFeeBps.toNat)
        (authorFeeDue R σ d.thread d.payer d.node) σ σ' := by
  subst hrent
  obtain ⟨d, hd, hpost, hti, hai, hc⟩ := processFillSlot_ok (reach_tidy h) hs.2
  have hin : (program R).Reach (Within K) σ := h.mono fun _ _ _ hok => hok.2
  have hb := reach_bounded h (hd.settings_holds.cell hd.settings_tag)
  have hlive : (σ.cell R).Live d.thread := ⟨_, hd.thread_holds.cell hd.thread_tag⟩
  have hne : d.treasury ≠ d.author := by
    intro heq
    have hkeys : ∀ k ∈ (Pda.authorFee d.thread d.authorIdx).keys, k ∈ K := by
      intro k hk
      obtain rfl := List.mem_singleton.mp hk
      exact reach_live_within hin hlive
    have hsame := address_inj hK (p := .treasuryShard d.treasuryIdx) (by simp [Pda.keys]) hkeys
      (heq ▸ hd.shards.treasury_addr) hd.shards.author_addr
    cases hsame
  have hf : d.Funded (sv.rent 0) σ := by
    refine ⟨hne, ?_, ?_⟩
    · exact reach_opened hK h (p := .treasuryShard d.treasuryIdx) hd.shards.treasury_lt
        hd.shards.treasury_addr (by simp [Pda.thread?]) rfl
    · refine reach_opened hK h (p := .authorFee d.thread d.authorIdx) hd.shards.author_lt
        hd.shards.author_addr ?_ rfl
      rintro t ⟨⟩
      exact hlive
  have hbase : d.baseFee sv = feeShare (sv.rent (ContentNode.size body.length))
      d.current.baseFeeBps.toNat := by
    have hsize : d.rent sv = sv.rent (ContentNode.size body.length) := by rw [FillSlot.rent, hpost]
    rw [FillSlot.baseFee, hsize, baseFeeOf_eq (Sysvars.rent_lt _ _) (rate_le hb.baseFee)]
  refine ⟨d, hd, hpost, hti, hai, hc, ?_⟩
  rw [← hbase, ← hd.authorFee_eq]
  exact hd.charge hs.1 hb hf

/-- The post of `bob` is charged exactly. -/
theorem post_charge_bob : ∃ d : FillSlot,
    d.Ok localnet Local.sysvars Local.postBob.accounts
      (afterCalls localnet Local.history Local.genesis)
      (afterCalls localnet [Local.postBob] (afterCalls localnet Local.history Local.genesis)) ∧
    d.post = ⟨0, [104, 105], 0, 0, 1000⟩ ∧ d.treasuryIdx = 0 ∧ d.authorIdx = 0 ∧
    d.candidate ∈ [(⟨0, 0⟩ : CandidateSlot)] ∧
    PostCharge Local.sysvars d
      (feeShare (Local.sysvars.rent (ContentNode.size 2)) d.current.baseFeeBps.toNat)
      (authorFeeDue localnet (afterCalls localnet Local.history Local.genesis) d.thread d.payer
        d.node) (afterCalls localnet Local.history Local.genesis)
      (afterCalls localnet [Local.postBob] (afterCalls localnet Local.history Local.genesis)) :=
  post_charge localnet_collisionFree (Local.history_reach Local.history_steady) rfl
    Local.postBob_step

end Txtcel
