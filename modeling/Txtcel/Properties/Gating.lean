import Txtcel.Properties.AccessList
import Txtcel.Spec.Denied
import Txtcel.System.Charge

/-!
# Gating decides by the real members

`fill_slot` reads a cached counter and two accounts the caller passes. Over reachable stores that is
a decision about the access list itself:

* `Gated`: the access account is enabled, and somebody is allowed or entry costs something;
* `Admits`: who may post;
* `gating_decides`: a post goes through only for those, and for those it is never turned away with
  `AccessDenied` -- whatever accounts and candidates the caller passes. What the post is charged for
  the author is the message fee, or nothing for the author and the exempt (`PostAdmitted`, in
  lamports).
-/

namespace Txtcel

open Lib Function

variable {R : Runtime} {sv : Sysvars} {accounts : List AccountInfo} {σ σ' : Ledger}
  {t w k : Pubkey}

/-! ## 1. The decision, on the access list -/

/-- Posting in the thread takes an entry: its access account is enabled, and some wallet is allowed
    or entry costs something. -/
def Gated (R : Runtime) (σ : Ledger) (t : Pubkey) : Prop :=
  ∃ a, (σ.cell R).accessOf R t = some a ∧ a.enabled = true ∧
    ((∃ w, (σ.cell R).standing R t w = some accessAllowed) ∨ 0 < a.entryFee)

/-- The wallet may post in the thread of this author. -/
structure Admits (R : Runtime) (σ : Ledger) (t author w : Pubkey) : Prop where
  not_denied : (σ.cell R).standing R t w ≠ some accessDenied
  member : Gated R σ t → w = author ∨ (σ.cell R).standing R t w = some accessAllowed ∨
    (σ.cell R).standing R t w = some accessFeeExempt

/-- What a post of the wallet owes the author: the message fee, unless it is the author or exempt. -/
def authorFeeDue (R : Runtime) (σ : Ledger) (t w : Pubkey) (x : ThreadNode) : Nat :=
  if w = x.author ∨ (σ.cell R).standing R t w = some accessFeeExempt then 0
  else x.messageFee.toNat

/-- The post went through, for somebody the thread admits, and was charged what it owed: the author's
    part of the fee reaches the author's shard, the platform's the treasury, and the payer pays both
    (`PostCharge`). Over keys that do not collide, the shards are funded in every store reached at a
    fixed rent (`post_charge`). -/
def PostAdmitted (R : Runtime) (sv : Sysvars) (accounts : List AccountInfo) (σ σ' : Ledger)
    (t w : Pubkey) : Prop :=
  ∃ d : FillSlot, d.Ok R sv accounts σ σ' ∧ d.thread = t ∧ d.payer = w ∧ w ∈ signers accounts ∧
    Admits R σ t d.node.author w ∧ d.authorFee = authorFeeDue R σ t w d.node ∧
    (d.Funded (sv.rent 0) σ → PostCharge sv d (d.baseFee sv) (authorFeeDue R σ t w d.node) σ σ')

/-! ## 2. What the stage reads -/

/-- The account at the access address is the access account of the thread. -/
theorem AccessSeen.accessOf {seen : Option ThreadAccess} (ha : R.HasAddress (.access t) k)
    (h : AccessSeen σ R k t seen) : (σ.cell R).accessOf R t = seen := by
  cases seen with
  | none =>
    rw [accessOf_of_address ha, cell_eq_free.mpr h]
    rfl
  | some a =>
    have hc := h.1.cell h.2.1
    exact accessOf_eq_some.mpr ⟨k, ha, hc, h.2.2⟩

/-- The account at the entry address says what the access list says. -/
theorem EntrySeen.standing {s : Option UInt8} (ha : R.HasAddress (.entry t w) k)
    (h : EntrySeen σ R k t w s) : (σ.cell R).standing R t w = s := by
  cases s with
  | none =>
    rw [standing_of_address ha, cell_eq_free.mpr h]
    rfl
  | some s =>
    have hc := Ledger.Holds.cell h rfl
    exact standing_eq_some.mpr ⟨k, _, ha, hc, rfl, rfl, rfl⟩

/-- **The counter stands for the members**: what the stage computes from it is `Gated`. -/
theorem gate_iff (h : AclAgrees R σ t) :
    gate ((σ.cell R).accessOf R t) = true ↔ Gated R σ t := by
  unfold Gated
  cases ha : (σ.cell R).accessOf R t with
  | none => simp [gate]
  | some a =>
    have hcount : 0 < a.whitelistCount ↔
        ∃ w, (σ.cell R).standing R t w = some accessAllowed := by
      rw [UInt32.lt_iff_toNat_lt, h.counted a ha]
      exact countOf_pos
    simp [gate, ← hcount]

theorem mayPost_iff {author : Pubkey} {s : Option UInt8} :
    mayPost (w = author) s = true ↔
      w = author ∨ s = some accessAllowed ∨ s = some accessFeeExempt := by
  simp [mayPost, or_assoc]

/-- A wallet that passed the stage is admitted. -/
theorem AccessPassed.admits {author access entry : Pubkey} {seen : Option ThreadAccess}
    {s : Option UInt8} (hI : AclAgrees R σ t)
    (h : AccessPassed R σ t w author access entry seen s) : Admits R σ t author w := by
  have hseen := h.access_seen.accessOf h.access_addr
  have hs := h.entry_seen.standing h.entry_addr
  refine ⟨hs ▸ h.not_denied, fun hg => ?_⟩
  rw [hs]
  exact mayPost_iff.mp (h.allowed (hseen ▸ (gate_iff hI).mpr hg))

theorem FillSlot.Ok.authorFee_eq {d : FillSlot} (h : d.Ok R sv accounts σ σ') :
    d.authorFee = authorFeeDue R σ d.thread d.payer d.node := by
  rw [authorFeeDue, h.access.entry_seen.standing h.access.entry_addr]
  simp only [FillSlot.authorFee, postsFree, Bool.or_eq_true, decide_eq_true_eq]

/-- A wallet that the stage turned away is not admitted. -/
theorem not_admits_of_denied {p ac en : AccountInfo} {author : Pubkey} (hT : σ.Tidy R)
    (hI : AclAgrees R σ t) (h : accessStage R p ac en t author σ = .error denied) :
    ¬ Admits R σ t author p.key := by
  intro hadm
  obtain ⟨hac, hen, hden | ⟨seen, s, hseen, hs, hgate, hno⟩⟩ := accessStage_denied hT h
  · exact hadm.not_denied (hden.standing hen)
  · have hmember := hadm.member ((gate_iff hI).mp ((hseen.accessOf hac).symm ▸ hgate))
    rw [hs.standing hen] at hmember
    have hyes := mayPost_iff.mpr hmember
    rw [hno] at hyes
    cases hyes

/-! ## 3. The decision of `fill_slot` -/

/-- **Main statement**: from every store reached while the counter of `t` had room, a `FillSlot` by
    `w` on `t` succeeds only if the thread admits `w`, and then charges what `w` owes; and if the
    thread admits `w` it is not refused with `AccessDenied`. The accounts behind the first two and
    the candidates are arbitrary. -/
theorem gating_decides {kind : UInt16} {body : List UInt8} {candidates : List CandidateSlot}
    {ti : UInt16} {ai : UInt8} {rs : UInt32} {rp : UInt8} {maxFee : UInt64}
    (h : (program R).Reach (fewAllowed R t) σ) (hw : (keysOf accounts)[0]? = some w)
    (ht : (keysOf accounts)[1]? = some t) :
    (∀ σ', (program R).step σ
        (.call sv accounts (.fillSlot kind body candidates ti ai rs rp maxFee)) σ' →
      PostAdmitted R sv accounts σ σ' t w) ∧
    (∀ x, σ.cell R t = .holds (.thread x) → Admits R σ t x.author w →
      processInstruction R sv accounts (.fillSlot kind body candidates ti ai rs rp maxFee) σ ≠
        .error denied) := by
  have hT := reach_tidy h
  have hI := reach_aclAgrees h
  refine ⟨fun σ' hs => ?_, fun x hx hadm hden => ?_⟩
  · obtain ⟨d, hd, -⟩ := processFillSlot_ok hT hs.2
    have hdw : d.payer = w := by
      rw [getElem?_of_take (i := 0) hd.keys (by omega)] at hw
      exact Option.some.inj hw
    have hdt : d.thread = t := by
      rw [getElem?_of_take (i := 1) hd.keys (by omega)] at ht
      exact Option.some.inj ht
    subst hdw hdt
    have hb := reach_bounded h (hd.settings_holds.cell hd.settings_tag)
    refine ⟨d, hd, rfl, rfl, hd.signer, hd.access.admits hI, hd.authorFee_eq, fun hf => ?_⟩
    rw [← hd.authorFee_eq]
    exact hd.charge hs.1 hb hf
  · obtain ⟨p, th, ac, en, y, rest, rfl, hy, hytag, hstage⟩ := processFillSlot_denied hT hden
    obtain rfl : p.key = w := Option.some.inj hw
    obtain rfl : th.key = t := Option.some.inj ht
    have hcell := hy.cell hytag
    obtain rfl : y = x := by
      rw [hcell] at hx
      cases hx
      rfl
    exact not_admits_of_denied hT hI hstage hadm

/-- The gated channel takes the post of its member. -/
theorem gating_decides_member :
    PostAdmitted localnet Local.sysvars Local.postBob.accounts
      (afterCalls localnet Local.history Local.genesis)
      (afterCalls localnet [Local.postBob] (afterCalls localnet Local.history Local.genesis))
      Local.channel Local.bob :=
  (gating_decides history_few (by decide) (by decide)).1 _ Local.postBob_step

end Txtcel
