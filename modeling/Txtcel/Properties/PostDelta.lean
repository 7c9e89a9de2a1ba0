import Txtcel.Properties.FirstFree
import Txtcel.Properties.PostCharge
import Txtcel.System.Delta
import Txtcel.System.Rewritten

/-!
# A post as a change of single accounts

`f.Fills e x σ τ`: with its fee shards open, the call `f` passes its checks with the values `e` and
fills the candidate `x`, from `σ` to `τ`.

* `Fills.does`: what that does to each account -- for the lamports of the payer and the two shards,
  where the shards hold their rent minimum;
* `Fills.keeps`: it still does after a step that leaves alone what the call looks at, and lets the
  thread grow.
-/

namespace Txtcel

open Lib Exec Borsh Function

variable {R : Runtime} {sv : Sysvars} {σ σ' τ : Ledger} {f : FillCall} {e : FillEnv} {b c : UInt8}
  {x : CandidateSlot × AccountInfo} {K : Set Pubkey} {k : Pubkey}

/-! ## 1. The accounts a post looks at -/

theorem FillEnv.authorFee_lt (e : FillEnv) : e.authorFee < 2 ^ 64 := by
  unfold FillEnv.authorFee
  split
  · omega
  · exact UInt64.toNat_lt _

namespace FillCall

/-- What the checks found at the derived addresses. -/
structure Looks (f : FillCall) (R : Runtime) (σ : Ledger) (e : FillEnv) : Prop where
  settings_addr : R.HasAddress .settings f.settings.key
  settings_holds : σ.Holds R f.settings.key e.settings
  settings_tag : e.settings.tag = tagSettings
  access_addr : R.HasAddress (.access f.thread.key) f.access.key
  entry_addr : R.HasAddress (.entry f.thread.key f.payer.key) f.entry.key

theorem checks_looks (hT : σ.Tidy R) (h : f.checks R σ = .ok ((e, b, c), σ')) :
    f.Looks R σ e := by
  simp only [checks, assertFeeShardAccounts, validateFeeShards, validateTreasuryShard,
    validateAuthorFeeShard, bind_eq_ok, failIf_eq_ok, Prod.exists, assertSigner_eq_ok,
    assertWritable_eq_ok, assertSystemProgram_eq_ok, assertPda_eq_ok, orFail_eq_ok, pure_eq_ok,
    Prod.mk.injEq, and_assoc, true_and, existsAndEq, exists_and_left, exists_const] at h
  obtain ⟨-, _, _, hval, -, -, -, -, -, t, _, hlt, s, _, hls, -, -, -, -, x, hac, rfl, -⟩ := h
  obtain rfl := onlyIf_validateText_ok hval
  obtain ⟨-, -, rfl⟩ := loadThread_ok hlt
  obtain ⟨hst, hstag, hsaddr, rfl⟩ := loadSettings_ok hls
  obtain ⟨_, _, hpass, -, rfl⟩ := accessStage_ok hT hac
  exact ⟨hsaddr, hst, hstag, hpass.access_addr, hpass.entry_addr⟩

/-- **The checks pass again** where the settings and the access accounts look the same, whatever
    became of the rest of the thread. -/
theorem checks_alike {V Z : Set Pubkey} {t : ThreadNode} (hT : τ.Tidy R)
    (h : f.checks R σ = .ok ((e, b, c), σ')) (hA : Alike V Z σ τ) (hset : f.settings.key ∈ V)
    (hac : f.access.key ∈ V) (hen : f.entry.key ∈ V) (ht : τ.Holds R f.thread.key t)
    (htag : t.tag = tagThread) (hau : t.author = e.thread.author) :
    f.checks R τ = .ok (({ e with thread := t }, b, c), τ) := by
  simp only [checks, assertFeeShardAccounts, validateFeeShards, validateTreasuryShard,
    validateAuthorFeeShard, bind_eq_ok, failIf_eq_ok, Prod.exists, assertSigner_eq_ok,
    assertWritable_eq_ok, assertSystemProgram_eq_ok, assertPda_eq_ok, orFail_eq_ok, pure_eq_ok,
    Prod.mk.injEq, and_assoc, true_and, existsAndEq, exists_and_left, exists_const] at h ⊢
  obtain ⟨hlen, u, σ₁, hval, hne, hsig, hwt, hwa, hsys, old, σ₂, hlt, s, σ₃, hls, hti, hb, hai, hc,
    free, hstage, rfl, -⟩ := h
  obtain rfl : σ₁ = σ := onlyIf_validateText_ok hval
  obtain ⟨-, -, rfl⟩ := loadThread_ok hlt
  obtain ⟨-, -, -, rfl⟩ := loadSettings_ok hls
  -- what only reads succeeds with the same value, and leaves the ledger as it is
  have hvalR : Respects (Alike V Z) (onlyIf (ContentKind.fromU16 f.post.kind = .text)
      (validateText f.post.body)) := respects_onlyIf fun _ => respects_failIf _ _
  obtain ⟨τ₁, hval', -⟩ := hvalR _ _ hA _ _ hval
  obtain ⟨τ₂, hls', -⟩ := respects_loadSettings hset _ _ hA _ _ hls
  obtain ⟨τ₃, hstage', -⟩ := respects_accessStage (fun _ => hac) (fun _ => hen) _ _ hA _ _ hstage
  obtain rfl : τ₁ = τ := onlyIf_validateText_ok hval'
  obtain rfl : τ₂ = τ₁ := (loadSettings_ok hls').2.2.2
  obtain ⟨-, -, -, -, rfl⟩ := accessStage_ok hT hstage'
  rw [← hau] at hstage'
  exact ⟨hlen, u, _, hval', hne, hsig, hwt, hwa, hsys, t, _, loadThread_iff.mpr ⟨ht, htag, rfl⟩, s,
    _, hls', hti, hb, hai, hc, free, hstage', rfl, trivial⟩

/-! ## 2. The fill -/

/-- Both fee shards are open. -/
def ShardsOpen (f : FillCall) (σ : Ledger) : Prop :=
  ¬ σ.Free f.treasuryShard.key ∧ ¬ σ.Free f.authorFeeShard.key

theorem ShardsOpen.opened_eq (h : f.ShardsOpen σ) : f.opened R sv σ = σ := by
  rw [opened, Ledger.openShards, Ledger.openShard, Ledger.openShard, if_neg h.1, if_neg h.2]

/-- The call fills the candidate `x`, its shards being open. -/
structure Fills (f : FillCall) (R : Runtime) (sv : Sysvars) (e : FillEnv)
    (x : CandidateSlot × AccountInfo) (σ τ : Ledger) : Prop where
  shards_open : f.ShardsOpen σ
  passes : ∃ b c, f.checks R σ = .ok ((e, b, c), σ)
  first : ∃ pre rest, f.slots = pre ++ x :: rest ∧ ∀ y ∈ pre, e.Valid R y ∧ ¬ σ.Free y.2.key
  valid : e.Valid R x
  free : σ.Free x.2.key
  fills : ∃ bump, (Pda.content e.threadKey x.1.allocSeq x.1.slot).derive R = some (x.2.key, bump) ∧
    fillFreeSlot R sv e f.post x.1 x.2 bump σ = .ok ((), τ)

/-- A call that succeeds on open shards fills a candidate. -/
theorem exists_fills (hT : σ.Tidy R) (ho : f.ShardsOpen σ)
    (hs : (program R).step σ (f.event sv) τ) : ∃ e x, f.Fills R sv e x σ τ := by
  obtain ⟨e, b, c, τ₀, hpass⟩ := checks_of_step hs
  obtain ⟨hc, rfl⟩ := checks_ok hT hpass
  have hloop := loop_of_ok hpass hs.2
  rw [ho.opened_eq] at hloop
  obtain ⟨pre, x, rest, bump, hslots, hpre, hx, hf, hb, hfill⟩ := fillCandidates_split hloop
  exact ⟨e, x, ho, ⟨b, c, hpass⟩, ⟨pre, rest, hslots, hpre⟩, hx, hf, bump, hb, hfill⟩

namespace Fills

variable (h : f.Fills R sv e x σ τ)
include h

/-- ... and a call that fills one succeeds. -/
theorem step (hown : OwnKeys R f.accounts) : (program R).step σ (f.event sv) τ := by
  obtain ⟨b, c, hpass⟩ := h.passes
  obtain ⟨pre, rest, hslots, hpre⟩ := h.first
  obtain ⟨bump, hbump, hfill⟩ := h.fills
  obtain ⟨d, hd, hloop⟩ := fillCandidates_first sv f.post hpre h.valid h.free
  obtain rfl : d = bump := by
    rw [hbump] at hd
    cases hd
    rfl
  refine ⟨hown, (run_eq hpass).trans ?_⟩
  have hens : ensureFeeShardsInitialized R sv f.payer f.treasuryShard f.authorFeeShard f.system
      f.thread.key f.treasuryIdx f.authorIdx b c σ = .ok ((), σ) :=
    (bind_of_ok (ensureShardInitialized_open h.shards_open.1)).trans
      (ensureShardInitialized_open h.shards_open.2)
  rw [bind_of_ok hens, hslots, hloop rest]
  exact hfill

theorem mem_slots : x ∈ f.slots := by
  obtain ⟨pre, rest, hslots, -⟩ := h.first
  rw [hslots]
  exact List.mem_append_right _ List.mem_cons_self

theorem post_eq : τ = e.filled R sv f.post x.1 x.2.key σ := by
  obtain ⟨bump, -, hfill⟩ := h.fills
  exact fillFreeSlot_ok hfill

theorem checked (hT : σ.Tidy R) : ∃ b c, f.Checked R σ e b c := by
  obtain ⟨b, c, hpass⟩ := h.passes
  exact ⟨b, c, (checks_ok hT hpass).1⟩

theorem looks (hT : σ.Tidy R) : f.Looks R σ e := by
  obtain ⟨b, c, hpass⟩ := h.passes
  exact checks_looks hT hpass

end Fills

/-! ## 3. What it does to each account -/

/-- What a post into `x` does, where `x` holds `held` lamports before. -/
def delta (f : FillCall) (R : Runtime) (sv : Sysvars) (e : FillEnv)
    (x : CandidateSlot × AccountInfo) (held : Nat) : Delta where
  data k := if k = x.2.key then some (Borsh.serialize (f.message sv x.1)) else none
  owner k := if k = x.2.key then some R.programId else none
  gain k := (if k = f.treasuryShard.key then e.baseFee sv f.post +
        feeShare e.authorFee e.settings.authorFeeCutBps.toNat else 0) +
      (if k = f.authorFeeShard.key then
        e.authorFee - feeShare e.authorFee e.settings.authorFeeCutBps.toNat else 0) +
    (if k = x.2.key then e.rent sv f.post - held else 0)
  loss k := if k = f.payer.key then e.baseFee sv f.post + e.authorFee + (e.rent sv f.post - held)
    else 0

section Delta

variable {n : Nat}

theorem delta_data_self :
    (f.delta R sv e x n).data x.2.key = some (Borsh.serialize (f.message sv x.1)) := if_pos rfl

theorem delta_data_of_ne (hk : k ≠ x.2.key) : (f.delta R sv e x n).data k = none := if_neg hk

theorem delta_owner : (f.delta R sv e x n).owner k =
    if k = x.2.key then some R.programId else none := rfl

theorem delta_owner_of_ne (hk : k ≠ x.2.key) : (f.delta R sv e x n).owner k = none := if_neg hk

theorem delta_loss_payer : (f.delta R sv e x n).loss f.payer.key =
    e.baseFee sv f.post + e.authorFee + (e.rent sv f.post - n) := if_pos rfl

/-- The gains add up to what the payer loses, at a rate of at most 100 %. -/
theorem total_delta_gain (hcut : e.settings.authorFeeCutBps.toNat ≤ 10000) :
    total (f.delta R sv e x n).gain = (f.delta R sv e x n).loss f.payer.key := by
  have hle : feeShare e.authorFee e.settings.authorFeeCutBps.toNat ≤ e.authorFee :=
    feeShare_le hcut
  show total (fun k => _) = _
  rw [delta_loss_payer]
  unfold delta
  rw [total_add, total_add, total_single, total_single, total_single]
  omega

theorem delta_loss_of_ne (hk : k ≠ f.payer.key) : (f.delta R sv e x n).loss k = 0 := if_neg hk

end Delta

/-- The accounts whose lamports depend on what the shards hold. -/
def charged (f : FillCall) : Set Pubkey :=
  {k | k = f.payer.key ∨ k = f.treasuryShard.key ∨ k = f.authorFeeShard.key}

/-- Both shards hold the rent minimum in force. -/
def Funded (f : FillCall) (sv : Sysvars) (σ : Ledger) : Prop :=
  sv.rent 0 ≤ σ.lamports f.treasuryShard.key ∧ sv.rent 0 ≤ σ.lamports f.authorFeeShard.key

theorem spends (hT : σ.Tidy R) (hs : (program R).step σ (f.event sv) τ) :
    σ.Spends f.payer.key τ := by
  obtain ⟨d, hd, -⟩ := processFillSlot_ok hT ((congrFun (run_def f) σ).symm.trans hs.2)
  have hkeys : [f.payer.key, f.thread.key, f.settings.key, f.treasuryShard.key,
      f.authorFeeShard.key] = [d.payer, d.thread, d.settings, d.treasury, d.author] := hd.keys
  rw [(List.cons.inj hkeys).1]
  exact hd.spends

namespace Fills

variable (h : f.Fills R sv e x σ τ) (hr : (program R).Reach (Within K) σ) (hK : R.CollisionFree K)
  (hown : OwnKeys R f.accounts)
include h hr hK hown

theorem lands : f.Lands R sv x σ τ := by
  obtain ⟨b, c, hc⟩ := h.checked (reach_tidy hr)
  have hlands : f.Lands R sv x σ (e.filled R sv f.post x.1 x.2.key (f.opened R sv σ)) :=
    lands_filled hr hc hK hown
  rw [h.shards_open.opened_eq, ← h.post_eq] at hlands
  exact hlands

/-- **The change, account by account**, but for the lamports of the payer and the shards. -/
theorem does : (f.delta R sv e x (σ.lamports x.2.key)).Does f.charged σ τ := by
  have hlands := h.lands hr hK hown
  obtain ⟨b, c, hc⟩ := h.checked (reach_tidy hr)
  refine ⟨fun k => ?_, fun k => ?_, fun k hk => ?_⟩
  · by_cases hkx : k = x.2.key
    · rw [hkx, delta_data_self]
      exact hlands.content.data
    · rw [delta_data_of_ne hkx]
      exact hlands.data k hkx
  · rw [h.post_eq, FillEnv.filled, Ledger.split_owner, Ledger.collect_owner, FillEnv.stored,
      Ledger.put_owner, Ledger.create_owner, update_apply, delta_owner]
    split
    · rfl
    · rfl
  · obtain ⟨hp, hts, hau⟩ := not_or.mp hk |>.imp_right not_or.mp
    rw [h.post_eq, FillEnv.filled, hc.payer, hc.treasuryShard, hc.authorFeeShard,
      Ledger.split_other _ _ _ _ _ _ _ hp hau hts, Ledger.collect_other _ _ _ _ _ hp hts,
      FillEnv.stored, Ledger.put_lamports, Ledger.create_lamports, hc.payer,
      Ledger.pay_lamports hp, delta_loss_of_ne hp]
    simp only [delta, hts, hau, if_false]
    omega

/-- **The lamports of every account**, where the shards hold their minimum. -/
theorem lamports (hf : f.Funded sv σ) : (f.delta R sv e x (σ.lamports x.2.key)).Does ∅ σ τ := by
  have hdoes := h.does hr hK hown
  obtain ⟨b, c, hc⟩ := h.checked (reach_tidy hr)
  have hlooks := h.looks (reach_tidy hr)
  have hb := reach_bounded hr (hlooks.settings_holds.cell hlooks.settings_tag)
  have hx : x.2.key ≠ f.payer.key :=
    pda_ne_payer hc hown (h.valid.addr.isPda)
  have hgain : ∀ j, j ≠ f.payer.key → τ.lamports j =
      σ.lamports j + (f.delta R sv e x (σ.lamports x.2.key)).gain j := by
    intro j hj
    have hstored : (e.stored R sv f.post x.1 x.2.key σ).lamports j = σ.lamports j +
        if j = x.2.key then e.rent sv f.post - σ.lamports x.2.key else 0 := by
      rw [FillEnv.stored, Ledger.put_lamports, Ledger.create_lamports, hc.payer,
        Ledger.pay_lamports hj]
    have hle := Nat.le.intro hstored.symm
    rw [h.post_eq, FillEnv.filled, hc.payer, hc.treasuryShard, hc.authorFeeShard,
      Ledger.fees_lamports hj ?_ ?_ e.authorFee_lt (rate_le hb.authorFeeCut), hstored]
    · simp only [delta]
      omega
    · intro hja
      exact (hja ▸ hf.2).trans hle
    · intro hjt
      exact (hjt ▸ hf.1).trans hle
  refine ⟨hdoes.data, hdoes.owner, fun j _ => ?_⟩
  by_cases hj : j = f.payer.key
  · subst hj
    have hts := pda_ne_payer hc hown hc.treasury_addr.isPda
    have hau := pda_ne_payer hc hown hc.author_addr.isPda
    have hzero : (f.delta R sv e x (σ.lamports x.2.key)).gain f.payer.key = 0 := by
      simp only [delta, hts.symm, hau.symm, hx.symm, if_false]
    have hpays := total_gains hzero hgain (spends (reach_tidy hr) (h.step hown)).total_eq
    rw [total_delta_gain (rate_le hb.authorFeeCut)] at hpays
    omega
  · rw [hgain j hj, delta_loss_of_ne hj, Nat.sub_zero]

end Fills

end FillCall

/-! ## 4. What keeps a post valid -/

section Grown

variable {t : ThreadNode} {n : Nat}

theorem FillEnv.Valid.grown {y : CandidateSlot × AccountInfo} (h : e.Valid R y)
    (hg : e.thread.Grown t) : FillEnv.Valid R { e with thread := t } y :=
  { h with seq_le := UInt32.le_trans h.seq_le hg.last_le }

theorem fillFreeSlot_grown {post : Post} {s : CandidateSlot} {a : AccountInfo}
    (hg : e.thread.Grown t) :
    fillFreeSlot R sv { e with thread := t } post s a b = fillFreeSlot R sv e post s a b := by
  have hfee : ({ e with thread := t } : FillEnv).thread.messageFee = e.thread.messageFee :=
    hg.messageFee
  unfold fillFreeSlot
  rw [hfee]

/-- **The loop still succeeds** in a thread that has grown. -/
theorem fillCandidates_grown {post : Post} {slots : List (CandidateSlot × AccountInfo)}
    {r : Unit × Ledger} (hg : e.thread.Grown t) (h : fillCandidates R sv e post slots σ = .ok r) :
    fillCandidates R sv { e with thread := t } post slots σ = .ok r := by
  obtain ⟨pre, x, rest, b, rfl, hpre, hx, hf, hb, hfill⟩ := fillCandidates_split h
  obtain ⟨c, hc, hloop⟩ := fillCandidates_first sv post
    (fun y hy => ⟨(hpre y hy).1.grown hg, (hpre y hy).2⟩) (hx.grown hg) hf
  obtain rfl : c = b := by
    rw [show (Pda.content e.threadKey x.1.allocSeq x.1.slot).derive R = some (x.2.key, c) from hc]
      at hb
    cases hb
    rfl
  rw [hloop rest, fillFreeSlot_grown hg]
  exact hfill

theorem FillCall.delta_grown (hg : e.thread.Grown t) :
    f.delta R sv { e with thread := t } x n = f.delta R sv e x n := by
  have hfee : FillEnv.authorFee { e with thread := t } = e.authorFee := by
    unfold FillEnv.authorFee
    rw [hg.messageFee]
  unfold FillCall.delta
  rw [hfee]
  rfl

/-- **A post stays valid** where what it looks at looks the same, its thread has at most grown, and
    its slot can still be filled. -/
theorem FillCall.Fills.keeps {V Z : Set Pubkey} (h : f.Fills R sv e x σ σ') (hT : σ.Tidy R)
    (hT' : τ.Tidy R) (hA : Alike V Z σ τ) (hset : f.settings.key ∈ V) (hac : f.access.key ∈ V)
    (hen : f.entry.key ∈ V) (hopen : f.ShardsOpen τ)
    (hslots : ∀ y, e.Valid R y → y ∈ f.slots → (τ.Free y.2.key ↔ σ.Free y.2.key))
    (ht : τ.Holds R f.thread.key t) (hg : e.thread.Grown t)
    (hfill : ∀ bump, fillFreeSlot R sv e f.post x.1 x.2 bump σ = .ok ((), σ') →
      ∃ τ', fillFreeSlot R sv e f.post x.1 x.2 bump τ = .ok ((), τ')) :
    ∃ τ', f.Fills R sv { e with thread := t } x τ τ' := by
  obtain ⟨b, c, hpass⟩ := h.passes
  obtain ⟨pre, rest, hsplit, hpre⟩ := h.first
  obtain ⟨bump, hbump, hrun⟩ := h.fills
  obtain ⟨τ', hrun'⟩ := hfill bump hrun
  obtain ⟨hc, -⟩ := checks_ok hT hpass
  have hfront : ∀ y ∈ pre, y ∈ f.slots := fun y hy => by
    rw [hsplit]
    exact List.mem_append_left _ hy
  refine ⟨τ', hopen, ⟨b, c, ?_⟩, ⟨pre, rest, hsplit, fun y hy => ?_⟩, h.valid.grown hg, ?_, bump,
    hbump, ?_⟩
  · exact checks_alike hT' hpass hA hset hac hen ht (hg.tag.trans hc.thread_tag) hg.author
  · obtain ⟨hval, hocc⟩ := hpre y hy
    exact ⟨hval.grown hg, fun hf => hocc ((hslots y hval (hfront y hy)).mp hf)⟩
  · exact (hslots x h.valid h.mem_slots).mpr h.free
  · rw [fillFreeSlot_grown hg]
    exact hrun'

end Grown

end Txtcel
