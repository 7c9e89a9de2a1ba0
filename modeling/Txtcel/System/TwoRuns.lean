import Txtcel.Spec.Success
import Txtcel.Spec.Flows
import Txtcel.System.Machine

/-!
# Two runs of a handler

`Alike V Z σ τ`: the ledger `τ` looks like `σ` on the accounts in `V`, and may hold more lamports on
those in `Z`. A handler whose accounts are in `V` and whose payer is in `Z` succeeds from `τ` where
it succeeds from `σ`, and the ledgers stay alike: what an account already holds is not charged
again, so more lamports somewhere never cost anybody more.

One lemma for each operation, in the order of the source, and one for each handler.
-/

namespace Txtcel

open Lib Exec Borsh Function

variable {R : Runtime} {sv : Sysvars} {V Z : Set Pubkey} {σ τ : Ledger} {p k : Pubkey}

/-- `τ` looks like `σ` on `V`, and may hold more on `Z`. Where something is in `Z`, the lamports of
    `τ` are no more than fit. -/
structure Alike (V Z : Set Pubkey) (σ τ : Ledger) : Prop where
  data : ∀ k ∈ V, τ.data k = σ.data k
  owner : ∀ k ∈ V, τ.owner k = σ.owner k
  le : ∀ k ∈ V, σ.lamports k ≤ τ.lamports k
  same : ∀ k ∈ V, k ∉ Z → τ.lamports k = σ.lamports k
  supply : Z = ∅ ∨ total τ.lamports < 2 ^ 64

/-! ## 1. The relation under the operations -/

namespace Alike

theorem free_iff (h : Alike V Z σ τ) (hk : k ∈ V) : τ.Free k ↔ σ.Free k := by
  rw [Ledger.Free, Ledger.Free, h.data k hk, h.owner k hk]

theorem setData (h : Alike V Z σ τ) (k : Pubkey) (bs : Bytes) :
    Alike V Z (σ.setData k bs) (τ.setData k bs) where
  data j hj := by
    rw [Ledger.setData_data, Ledger.setData_data]
    by_cases hjk : j = k
    · rw [hjk, update_self, update_self]
    · rw [update_of_ne hjk, update_of_ne hjk, h.data j hj]
  owner := h.owner
  le := h.le
  same := h.same
  supply := h.supply

theorem setOwner (h : Alike V Z σ τ) (k o : Pubkey) :
    Alike V Z (σ.setOwner k o) (τ.setOwner k o) where
  data := h.data
  owner j hj := by
    rw [Ledger.setOwner_owner, Ledger.setOwner_owner]
    by_cases hjk : j = k
    · rw [hjk, update_self, update_self]
    · rw [update_of_ne hjk, update_of_ne hjk, h.owner j hj]
  le := h.le
  same := h.same
  supply := h.supply

theorem allot (h : Alike V Z σ τ) (k : Pubkey) (n : Nat) (o : Pubkey) :
    Alike V Z (σ.allot k n o) (τ.allot k n o) := (h.setData k _).setOwner k o

/-- **A payment**: the right run pays no more, and leaves the receiver with no less. -/
theorem pay (h : Alike V Z σ τ) (hp : p ∈ V) (hk : k ∈ V) {n m : Nat} (hm : m ≤ n)
    (hn : n ≤ σ.lamports p) (hle : σ.lamports k + n ≤ τ.lamports k + m)
    (hz : m = n ∨ p ∈ Z ∧ k ∈ Z) : Alike V Z (σ.pay p k n) (τ.pay p k m) := by
  have hpp := h.le p hp
  refine ⟨h.data, h.owner, fun j hj => ?_, fun j hj hjz => ?_, ?_⟩
  · by_cases hjp : j = p
    · subst hjp
      by_cases hjk : j = k
      · subst hjk
        simp only [Ledger.pay, update_self]
        omega
      · rw [Ledger.pay_src _ _ _ _ (Ne.symm hjk), Ledger.pay_src _ _ _ _ (Ne.symm hjk)]
        omega
    · rw [Ledger.pay_lamports hjp, Ledger.pay_lamports hjp]
      have hjj := h.le j hj
      split
      · rename_i hjk
        rwa [hjk]
      · exact hjj
  · have hsame := h.same j hj hjz
    by_cases hjp : j = p
    · subst hjp
      obtain rfl : m = n := hz.resolve_right fun hz => hjz hz.1
      simp only [Ledger.pay, update_apply, hsame]
      split
      · rename_i hjk
        rw [← hjk, if_pos rfl, if_pos rfl]
      · rfl
    · rw [Ledger.pay_lamports hjp, Ledger.pay_lamports hjp, hsame]
      by_cases hjk : j = k
      · subst hjk
        obtain rfl : m = n := hz.resolve_right fun hz => hjz hz.2
        rfl
      · rw [if_neg hjk, if_neg hjk]
  · refine h.supply.imp_right fun ht => ?_
    show total (τ.pay p k m).lamports < _
    rw [Ledger.pay, total_move _ _ _ _ (by omega)]
    exact ht

/-- What fits on the left fits on the right. -/
theorem fits (h : Alike V Z σ τ) (hk : k ∈ V) (hfit : σ.lamports k < 2 ^ 64) :
    τ.lamports k < 2 ^ 64 := by
  rcases h.supply with rfl | ht
  · rw [h.same k hk (Set.notMem_empty k)]
    exact hfit
  · exact (le_total _ k).trans_lt ht

/-- **What the payer can pay on the left it can pay on the right**, where that is no more. -/
theorem canPay (h : Alike V Z σ τ) {p d : AccountInfo} (hp : p.key ∈ V) (hd : d.key ∈ V) {n m : Nat}
    (hc : CanPay σ p d n) (hm : m ≤ n)
    (hle : σ.lamports d.key + n ≤ τ.lamports d.key + m) (hz : m = n ∨ p.key ∈ Z ∧ d.key ∈ Z) :
    CanPay τ p d m ∧ Alike V Z (σ.pay p.key d.key n) (τ.pay p.key d.key m) := by
  have hpay := h.pay hp hd hm hc.enough hle hz
  have hpp := h.le _ hp
  refine ⟨⟨hc.signer, hc.writable, hc.dst_writable, (h.data _ hp).trans hc.empty,
    (hm.trans hc.enough).trans hpp, ?_, hpay.fits hd hc.room⟩, hpay⟩
  rcases hc.owner with h0 | ho
  · exact .inl (by omega)
  · exact .inr ((h.owner _ hp).trans ho)

end Alike

/-- Who pays: a visible account, which may hold more wherever another may. -/
structure Pays (V Z : Set Pubkey) (p : Pubkey) : Prop where
  visible : p ∈ V
  slack : Z = ∅ ∨ p ∈ Z

theorem Pays.of_mem (h : Pays V Z p) (hk : k ∈ Z) : p ∈ Z := by
  rcases h.slack with rfl | hp
  · exact absurd hk (Set.notMem_empty k)
  · exact hp

/-- Two amounts that are the same where the receiver holds the same. -/
theorem Pays.slack_of (h : Pays V Z p) {n m : Nat} (hkz : k ∉ Z → m = n) :
    m = n ∨ p ∈ Z ∧ k ∈ Z := by
  by_cases hk : k ∈ Z
  · exact .inr ⟨h.of_mem hk, hk⟩
  · exact .inl (hkz hk)

/-! ## 2. Checks and loaders -/

section Checks

variable {a b : AccountInfo}

theorem respects_next {β : Type} {accounts : List AccountInfo} {Rel : Ledger → Ledger → Prop}
    {f : AccountInfo × List AccountInfo → Handler β}
    (h : ∀ a rest, accounts = a :: rest → Respects Rel (f (a, rest))) :
    Respects Rel (nextAccountInfo accounts >>= f) := by
  refine respects_bind ?_ fun x hx => ?_
  · cases accounts with
    | nil => exact respects_throw _
    | cons a rest => exact respects_pure _
  · obtain ⟨a, rest⟩ := x
    obtain ⟨s, s', hx⟩ := hx
    exact h a rest (nextAccountInfo_eq_ok.mp hx).1

theorem respects_dataOf (ha : a.key ∈ V) : Respects (Alike V Z) (dataOf a) :=
  respects_read (g := fun σ => σ.data a.key) (fun _ => rfl) fun _ _ h => h.data _ ha

theorem respects_ownerOf (ha : a.key ∈ V) : Respects (Alike V Z) (ownerOf a) :=
  respects_read (g := fun σ => σ.owner a.key) (fun _ => rfl) fun _ _ h => h.owner _ ha

theorem respects_isUninitialized (ha : a.key ∈ V) : Respects (Alike V Z) (isUninitialized a) :=
  respects_bind (respects_ownerOf ha) fun _ _ => respects_bind (respects_dataOf ha) fun _ _ =>
    respects_pure _

theorem respects_assertUninitialized (ha : a.key ∈ V) :
    Respects (Alike V Z) (assertUninitialized a) :=
  respects_bind (respects_isUninitialized ha) fun _ _ => respects_require _ _

theorem respects_assertOwnedBy {o : Pubkey} (ha : a.key ∈ V) :
    Respects (Alike V Z) (assertOwnedBy a o) :=
  respects_bind (respects_ownerOf ha) fun _ _ => respects_require _ _

theorem respects_readTag (ha : a.key ∈ V) : Respects (Alike V Z) (readTag a) :=
  respects_bind (respects_dataOf ha) fun _ _ => respects_orFail _ _

theorem respects_serializeInto {α : Type} [Borsh α] {x : α} (ha : a.key ∈ V) :
    Respects (Alike V Z) (serializeInto a x) :=
  respects_bind (respects_dataOf ha) fun _ _ => respects_bind (respects_orFail _ _) fun _ _ =>
    respects_modify fun _ _ h => h.setData _ _

theorem respects_resize {n : Nat} (ha : a.key ∈ V) : Respects (Alike V Z) (resize a n) :=
  respects_bind (respects_dataOf ha) fun _ _ => respects_modify fun _ _ h => h.setData _ _

theorem respects_assertPda {k : Pubkey} {Rel : Ledger → Ledger → Prop} :
    Respects Rel (assertPda a k) := respects_failIf _ _

theorem respects_assertUpgradeAuthority (ha : a.key ∈ V) :
    Respects (Alike V Z) (assertUpgradeAuthority R a b) :=
  respects_bind (respects_orFail _ _) fun _ _ => respects_bind respects_assertPda fun _ _ =>
    respects_bind (respects_assertOwnedBy ha) fun _ _ => respects_bind (respects_dataOf ha)
      fun _ _ => respects_bind (respects_failIf _ _) fun _ _ => respects_failIf _ _

/-! ### The loaders -/

theorem respects_loadThread (ha : a.key ∈ V) : Respects (Alike V Z) (loadThread R a) :=
  respects_bind (respects_assertOwnedBy ha) fun _ _ => respects_bind (respects_dataOf ha) fun _ _ =>
    respects_bind (respects_orFail _ _) fun _ _ => respects_bind (respects_failIf _ _) fun _ _ =>
      respects_pure _

theorem respects_loadAuthorThread (ha : a.key ∈ V) :
    Respects (Alike V Z) (loadAuthorThread R b a) :=
  respects_bind (respects_require _ _) fun _ _ => respects_bind (respects_require _ _) fun _ _ =>
    respects_bind (respects_loadThread ha) fun _ _ => respects_bind (respects_failIf _ _)
      fun _ _ => respects_pure _

theorem respects_loadThreadAccess (ha : a.key ∈ V) : Respects (Alike V Z) (loadThreadAccess a) :=
  respects_bind (respects_dataOf ha) fun _ _ => respects_bind (respects_orFail _ _) fun _ _ =>
    respects_bind (respects_failIf _ _) fun _ _ => respects_pure _

theorem respects_loadAdminAccess (ha : a.key ∈ V) :
    Respects (Alike V Z) (loadAdminAccess R b a) :=
  respects_bind (respects_require _ _) fun _ _ => respects_bind (respects_require _ _) fun _ _ =>
    respects_bind (respects_assertOwnedBy ha) fun _ _ =>
      respects_bind (respects_loadThreadAccess ha) fun _ _ => respects_bind (respects_failIf _ _)
        fun _ _ => respects_bind (respects_orFail _ _) fun _ _ => respects_bind respects_assertPda
          fun _ _ => respects_pure _

theorem respects_loadBoundAccessEntry {t w : Pubkey} (ha : a.key ∈ V) :
    Respects (Alike V Z) (loadBoundAccessEntry R a t w) :=
  respects_bind (respects_assertOwnedBy ha) fun _ _ =>
    respects_bind (respects_bind (respects_dataOf ha) fun _ _ => respects_bind (respects_orFail _ _)
      fun _ _ => respects_bind (respects_failIf _ _) fun _ _ => respects_pure _) fun _ _ =>
        respects_bind (respects_failIf _ _) fun _ _ => respects_pure _

theorem respects_loadAllocLikes (ha : a.key ∈ V) : Respects (Alike V Z) (loadAllocLikes a) :=
  respects_bind (respects_dataOf ha) fun _ _ => respects_bind (respects_orFail _ _) fun _ _ =>
    respects_bind (respects_failIf _ _) fun _ _ => respects_pure _

theorem respects_loadFollowRegistry (ha : a.key ∈ V) :
    Respects (Alike V Z) (loadFollowRegistry a) :=
  respects_bind (respects_dataOf ha) fun _ _ => respects_bind (respects_orFail _ _) fun _ _ =>
    respects_bind (respects_failIf _ _) fun _ _ => respects_pure _

theorem respects_loadBoundFollowerShard {t : Pubkey} {i : UInt8} (ha : a.key ∈ V) :
    Respects (Alike V Z) (loadBoundFollowerShard R a t i) :=
  respects_bind (respects_assertOwnedBy ha) fun _ _ =>
    respects_bind (respects_bind (respects_dataOf ha) fun _ _ => respects_bind (respects_orFail _ _)
      fun _ _ => respects_bind (respects_failIf _ _) fun _ _ => respects_pure _) fun _ _ =>
        respects_bind (respects_failIf _ _) fun _ _ => respects_pure _

theorem respects_loadAlloc (ha : a.key ∈ V) : Respects (Alike V Z) (loadAlloc R a) :=
  respects_bind (respects_assertOwnedBy ha) fun _ _ => respects_bind (respects_dataOf ha) fun _ _ =>
    respects_bind (respects_orFail _ _) fun _ _ => respects_bind (respects_failIf _ _) fun _ _ =>
      respects_bind (respects_orFail _ _) fun _ _ => respects_bind respects_assertPda fun _ _ =>
        respects_pure _

theorem respects_loadContent (ha : a.key ∈ V) : Respects (Alike V Z) (loadContent R a) :=
  respects_bind (respects_assertOwnedBy ha) fun _ _ => respects_bind (respects_dataOf ha) fun _ _ =>
    respects_bind (respects_orFail _ _) fun _ _ => respects_bind (respects_failIf _ _) fun _ _ =>
      respects_bind (respects_orFail _ _) fun _ _ => respects_bind respects_assertPda fun _ _ =>
        respects_pure _

end Checks

/-! ## 3. Payments -/

section Payments

variable {payer a b sys : AccountInfo}

theorem respects_loadSettings (ha : a.key ∈ V) : Respects (Alike V Z) (loadSettings R a) :=
  respects_bind (respects_orFail _ _) fun _ _ => respects_bind respects_assertPda fun _ _ =>
    respects_bind (respects_ownerOf ha) fun _ _ => respects_bind (respects_failIf _ _) fun _ _ =>
      respects_bind (respects_dataOf ha) fun _ _ => respects_bind (respects_orFail _ _) fun _ _ =>
        respects_bind (respects_failIf _ _) fun _ _ => respects_pure _

theorem respects_loadAdminSettings (ha : a.key ∈ V) :
    Respects (Alike V Z) (loadAdminSettings R b a) :=
  respects_bind (respects_require _ _) fun _ _ => respects_bind (respects_require _ _) fun _ _ =>
    respects_bind (respects_loadSettings ha) fun _ _ => respects_bind (respects_failIf _ _)
      fun _ _ => respects_pure _

/-- **A creation costs the payer what is missing**, which is no more where the address holds
    more. -/
theorem respects_createPdaAccount {space : Nat} {seeds : List Bytes} (hp : Pays V Z payer.key)
    (ha : a.key ∈ V) (hne : a.key ≠ payer.key) :
    Respects (Alike V Z) (createPdaAccount R sv payer a sys space seeds) := by
  intro σ τ h u σ' hrun
  obtain ⟨hsys, hfree, hsig, hw, hpay, rfl⟩ := (createPdaAccount_iff hne).mp hrun
  have hl := h.le _ ha
  have hz := hp.slack_of (k := a.key) (n := sv.rent space - σ.lamports a.key)
    (m := sv.rent space - τ.lamports a.key) fun hk => by rw [h.same _ ha hk]
  have henough : sv.rent space - σ.lamports a.key ≤ σ.lamports payer.key := by
    by_cases hlt : σ.lamports a.key < sv.rent space
    · exact (hpay (.inr hlt)).enough
    · omega
  have hpaid := h.pay hp.visible ha (by omega) henough (by omega) hz
  refine ⟨_, (createPdaAccount_iff hne).mpr
    ⟨hsys, (h.free_iff ha).mpr hfree, hsig, hw, fun hcond => ?_, rfl⟩, hpaid.allot _ _ _⟩
  exact (h.canPay hp.visible ha (hpay (by omega)) (by omega) (by omega) hz).1

theorem respects_invokeCreateAccount {n space : Nat} {seeds : List (List Bytes)}
    (hp : Pays V Z payer.key) (ha : a.key ∈ V) (hz : a.key ∉ Z) (hne : a.key ≠ payer.key) :
    Respects (Alike V Z) (invokeCreateAccount R payer a n space R.programId seeds) := by
  intro σ τ h u σ' hrun
  obtain ⟨h0, hfree, hsig, hw, hpay, rfl⟩ := (invokeCreateAccount_iff hne).mp hrun
  have hl := h.same _ ha hz
  obtain ⟨hpay', hpaid⟩ := h.canPay hp.visible ha hpay (le_refl n) (by omega) (.inl rfl)
  exact ⟨_, (invokeCreateAccount_iff hne).mpr
    ⟨hl.trans h0, (h.free_iff ha).mpr hfree, hsig, hw, hpay', rfl⟩, hpaid.allot _ _ _⟩

/-- A top-up costs no more where the account holds more. -/
theorem respects_topUp {x : Handler Unit} {n : Nat} (hp : Pays V Z payer.key) (ha : a.key ∈ V)
    (hx : ∀ σ σ' u, x σ = .ok (u, σ') ↔
      (σ.lamports a.key < n → CanPay σ payer a (n - σ.lamports a.key)) ∧
        σ' = σ.pay payer.key a.key (n - σ.lamports a.key)) : Respects (Alike V Z) x := by
  intro σ τ h u σ' hrun
  obtain ⟨hpay, rfl⟩ := (hx _ _ _).mp hrun
  have hl := h.le _ ha
  have hz := hp.slack_of (k := a.key) (n := n - σ.lamports a.key)
    (m := n - τ.lamports a.key) fun hk => by rw [h.same _ ha hk]
  have henough : n - σ.lamports a.key ≤ σ.lamports payer.key := by
    by_cases hlt : σ.lamports a.key < n
    · exact (hpay hlt).enough
    · omega
  have hpaid := h.pay hp.visible ha (by omega) henough (by omega) hz
  refine ⟨_, (hx _ _ _).mpr ⟨fun hcond => ?_, rfl⟩, hpaid⟩
  exact (h.canPay hp.visible ha (hpay (by omega)) (by omega) (by omega) hz).1

theorem respects_ensureRentExempt {n : Nat} (hp : Pays V Z payer.key) (ha : a.key ∈ V) :
    Respects (Alike V Z) (ensureRentExempt sv payer a n) :=
  respects_topUp hp ha fun _ _ _ => ensureRentExempt_iff

/-- **A fee** is no more where the shard holds more. -/
theorem respects_collectFeeToShard {n : Nat} (hp : Pays V Z payer.key) (ha : a.key ∈ V) :
    Respects (Alike V Z) (collectFeeToShard sv n payer a) := by
  intro σ τ h u σ' hrun
  obtain ⟨hpay, rfl⟩ := collectFeeToShard_iff.mp hrun
  by_cases h0 : n = 0
  · subst h0
    exact ⟨τ, collectFeeToShard_iff.mpr ⟨fun hn => absurd rfl hn, rfl⟩, h⟩
  · have hl := h.le _ ha
    have hz := hp.slack_of (k := a.key) (n := max n (sv.rent 0 - σ.lamports a.key))
      (m := max n (sv.rent 0 - τ.lamports a.key)) fun hk => by rw [h.same _ ha hk]
    obtain ⟨hpay', hpaid⟩ := h.canPay hp.visible ha (hpay h0) (m := max n (sv.rent 0 -
      τ.lamports a.key)) (by omega) (by omega) hz
    refine ⟨_, collectFeeToShard_iff.mpr ⟨fun _ => hpay', rfl⟩, ?_⟩
    rw [Ledger.collect, Ledger.collect, if_neg h0, if_neg h0]
    exact hpaid

theorem respects_transferFeeSplit {n cut : Nat} (hp : Pays V Z payer.key) (ha : a.key ∈ V)
    (hb : b.key ∈ V) : Respects (Alike V Z) (transferFeeSplit sv n cut payer a b) :=
  respects_bind (respects_onlyIf fun _ => respects_collectFeeToShard hp hb) fun _ _ =>
    respects_onlyIf fun _ => respects_collectFeeToShard hp ha

theorem respects_ensureShardInitialized {seeds : List Bytes} {c : UInt8} (hp : Pays V Z payer.key)
    (ha : a.key ∈ V) (hne : a.key ≠ payer.key) :
    Respects (Alike V Z) (ensureShardInitialized R sv payer a sys seeds c) :=
  respects_bind (respects_isUninitialized ha) fun _ _ =>
    respects_onlyIf fun _ => respects_createPdaAccount hp ha hne

/-! ### Moves without the System Program -/

/-- A move out of an account that holds the same on both sides. -/
theorem Alike.move (h : Alike V Z σ τ) {a b : Pubkey} {n : Nat} (ha : a ∈ V) (hb : b ∈ V)
    (hn : n ≤ σ.lamports a) : Alike V Z (σ.pay a b n) (τ.pay a b n) := by
  have hl := h.le _ hb
  exact h.pay ha hb (le_refl n) hn (by omega) (.inl rfl)

theorem respects_sweepShardExcess {r : Nat} (ha : a.key ∈ V) (hz : a.key ∉ Z) (hb : b.key ∈ V) :
    Respects (Alike V Z) (sweepShardExcess a b r) := by
  intro σ τ h u σ' hrun
  obtain ⟨hroom, rfl⟩ := sweepShardExcess_iff.mp hrun
  have hmove := h.move ha hb (Nat.sub_le (σ.lamports a.key) r)
  rw [← h.same _ ha hz] at hmove hroom ⊢
  exact ⟨_, sweepShardExcess_iff.mpr ⟨fun hlt => hmove.fits hb (hroom hlt), rfl⟩, hmove⟩

theorem respects_refundExcess {r : Nat} (ha : a.key ∈ V) (hz : a.key ∉ Z) (hb : b.key ∈ V) :
    Respects (Alike V Z) (refundExcess a b r) := by
  intro σ τ h u σ' hrun
  obtain ⟨hroom, rfl⟩ := refundExcess_iff.mp hrun
  have hmove := h.move ha hb (Nat.sub_le (σ.lamports a.key) r)
  rw [← h.same _ ha hz] at hmove hroom ⊢
  exact ⟨_, refundExcess_iff.mpr ⟨fun hlt => hmove.fits hb (hroom hlt), rfl⟩, hmove⟩

theorem respects_closeProgramAccount (ha : a.key ∈ V) (hz : a.key ∉ Z) (hb : b.key ∈ V)
    (hne : b.key ≠ a.key) : Respects (Alike V Z) (closeProgramAccount a b) := by
  intro σ τ h u σ' hrun
  obtain ⟨hroom, rfl⟩ := (closeProgramAccount_iff hne).mp hrun
  have hmove := h.move ha hb (le_refl (σ.lamports a.key))
  have hfit := hmove.fits hb (by rw [Ledger.pay_dst _ _ _ _ hne]; exact hroom)
  rw [← h.same _ ha hz] at hmove hfit ⊢
  rw [Ledger.pay_dst _ _ _ _ hne] at hfit
  exact ⟨_, (closeProgramAccount_iff hne).mpr ⟨hfit, rfl⟩, hmove.allot _ _ _⟩

end Payments

/-! ## 4. Fee shards and membership entries -/

section Stages

variable {payer ts as sys : AccountInfo} {t : Pubkey} {ti : UInt16} {ai b c : UInt8}

/-- A signer has no derived address. -/
theorem ne_signer {accounts : List AccountInfo} {a : AccountInfo} (hS : OwnKeys R accounts)
    (ha : a ∈ accounts) (hsig : a.isSigner = true) (hk : R.IsPda k) : k ≠ a.key :=
  fun h => hS a.key ⟨a, ha, hsig, rfl⟩ (h ▸ hk)

theorem respects_validateTreasuryShard {Rel : Ledger → Ledger → Prop} :
    Respects Rel (validateTreasuryShard R ts ti) :=
  respects_bind (respects_failIf _ _) fun _ _ => respects_bind (respects_orFail _ _) fun _ _ =>
    respects_bind respects_assertPda fun _ _ => respects_pure _

theorem respects_validateAuthorFeeShard {Rel : Ledger → Ledger → Prop} :
    Respects Rel (validateAuthorFeeShard R t as ai) :=
  respects_bind (respects_failIf _ _) fun _ _ => respects_bind (respects_orFail _ _) fun _ _ =>
    respects_bind respects_assertPda fun _ _ => respects_pure _

theorem respects_validateFeeShards : Respects (Alike V Z) (validateFeeShards R ts as t ti ai) :=
  respects_bind respects_validateTreasuryShard fun _ _ =>
    respects_bind respects_validateAuthorFeeShard fun _ _ => respects_pure _

theorem respects_assertFeeShardAccounts : Respects (Alike V Z) (assertFeeShardAccounts ts as sys) :=
  respects_bind (respects_require _ _) fun _ _ => respects_bind (respects_require _ _) fun _ _ =>
    respects_require _ _

theorem respects_ensureFeeShardsInitialized (hp : Pays V Z payer.key) (ht : ts.key ∈ V)
    (ha : as.key ∈ V) (hnt : ts.key ≠ payer.key) (hna : as.key ≠ payer.key) :
    Respects (Alike V Z) (ensureFeeShardsInitialized R sv payer ts as sys t ti ai b c) :=
  respects_bind (respects_ensureShardInitialized hp ht hnt) fun _ _ =>
    respects_ensureShardInitialized hp ha hna

theorem respects_prepareFeeShards (hp : Pays V Z payer.key) (hpda : ¬ R.IsPda payer.key)
    (ht : ts.key ∈ V) (ha : as.key ∈ V) :
    Respects (Alike V Z) (prepareFeeShards R sv payer ts as sys t ti ai) := by
  refine respects_bind respects_validateFeeShards fun bs hbs => ?_
  obtain ⟨s, s', hrun⟩ := hbs
  obtain ⟨hshards, -⟩ := validateFeeShards_ok hrun
  exact respects_ensureFeeShardsInitialized hp ht ha
    (fun h => hpda (h ▸ hshards.treasury_addr.isPda))
    (fun h => hpda (h ▸ hshards.author_addr.isPda))

theorem respects_setAccessEntryStatus {en : AccountInfo} {w : Pubkey} {status : UInt8}
    (hp : Pays V Z payer.key) (hen : en.key ∈ V) (hne : en.key ≠ payer.key) :
    Respects (Alike V Z) (setAccessEntryStatus R sv payer en sys t w status) :=
  respects_bind (respects_orFail _ _) fun _ _ => respects_bind respects_assertPda fun _ _ =>
    respects_bind (respects_isUninitialized hen) fun _ _ => respects_ite
      (fun _ => respects_bind (respects_createPdaAccount hp hen hne) fun _ _ =>
        respects_bind (respects_serializeInto hen) fun _ _ => respects_pure _)
      fun _ => respects_bind (respects_loadBoundAccessEntry hen) fun _ _ =>
        respects_bind (respects_serializeInto hen) fun _ _ => respects_pure _

theorem respects_adjustWhitelistCount {ac : AccountInfo} {delta : Int} (hac : ac.key ∈ V) :
    Respects (Alike V Z) (adjustWhitelistCount ac delta) :=
  respects_bind (respects_loadThreadAccess hac) fun _ _ => respects_serializeInto hac

end Stages

/-! ## 5. The handlers -/

section Handlers

variable {accounts : List AccountInfo}

/-- The accounts a handler takes first are visible. -/
def FirstIn (V : Set Pubkey) (accounts : List AccountInfo) (n : Nat) : Prop :=
  ∀ k ∈ (keysOf accounts).take n, k ∈ V

/-- The first account pays. -/
def FirstPays (V Z : Set Pubkey) (accounts : List AccountInfo) : Prop :=
  ∀ p, (keysOf accounts)[0]? = some p → Pays V Z p

/-- What passed `assert_pda` is at the address of the derivation. -/
theorem asserted {q : Pda} {a : AccountInfo} {found : Pubkey × UInt8} {e : ProgramError} {u : Unit}
    (hfind : ∃ s s', (orFail (q.derive R) e : Handler (Pubkey × UInt8)) s = .ok (found, s'))
    (hpda : ∃ s s', assertPda a found.1 s = .ok (u, s')) : R.HasAddress q a.key := by
  obtain ⟨s, s', hfind⟩ := hfind
  obtain ⟨r, r', hpda⟩ := hpda
  refine ⟨found.2, (orFail_eq_ok.mp hfind).1.trans ?_⟩
  rw [(assertPda_eq_ok.mp hpda).1]

/-- A signer is not at an asserted address. -/
theorem signed_ne {q : Pda} {p a : AccountInfo} {u : Unit} (hS : OwnKeys R accounts)
    (hmem : p ∈ accounts) (hsig : ∃ s s', assertSigner p s = .ok (u, s'))
    (ha : R.HasAddress q a.key) : a.key ≠ p.key := by
  obtain ⟨s, s', hsig⟩ := hsig
  exact ne_signer hS hmem (assertSigner_eq_ok.mp hsig).1 ha.isPda

/-! ### Settings -/

theorem respects_processInitSettings {treasury : Pubkey} (hS : OwnKeys R accounts)
    (hV : FirstIn V accounts 3) (hP : FirstPays V Z accounts) :
    Respects (Alike V Z) (processInitSettings R sv accounts treasury) := by
  refine respects_next fun p as₁ e₁ => respects_next fun s as₂ e₂ => respects_next fun d as₃ e₃ =>
    respects_next fun sys as₄ e₄ => ?_
  subst e₄ e₃ e₂ e₁
  have hs : s.key ∈ V := hV _ (by simp [keysOf])
  have hd : d.key ∈ V := hV _ (by simp [keysOf])
  refine respects_bind (respects_require _ _) fun _ hsig =>
    respects_bind (respects_require _ _) fun _ _ =>
    respects_bind (respects_assertUpgradeAuthority hd) fun _ _ =>
    respects_bind (respects_require _ _) fun _ _ =>
    respects_bind (respects_orFail _ _) fun found hfind =>
    respects_bind respects_assertPda fun _ hpda =>
    respects_bind (respects_assertUninitialized hs) fun _ _ => ?_
  have hne := signed_ne hS List.mem_cons_self hsig (asserted (q := .settings) hfind hpda)
  exact respects_bind (respects_createPdaAccount (hP _ rfl) hs hne) fun _ _ =>
    respects_serializeInto hs

theorem respects_updateSettings {update : ProgramSettings → ProgramSettings}
    (hV : FirstIn V accounts 2) :
    Respects (Alike V Z) (updateSettings R accounts update) := by
  refine respects_next fun p as₁ e₁ => respects_next fun s as₂ e₂ => ?_
  subst e₂ e₁
  have hs : s.key ∈ V := hV _ (by simp [keysOf])
  exact respects_bind (respects_loadAdminSettings hs) fun _ _ => respects_serializeInto hs

theorem respects_updatePlatformSetting {feeBps : UInt32}
    {update : ProgramSettings → ProgramSettings} (hV : FirstIn V accounts 2) :
    Respects (Alike V Z) (updatePlatformSetting R accounts feeBps update) :=
  respects_bind (respects_failIf _ _) fun _ _ => respects_updateSettings hV

/-! ### Threads -/

theorem respects_processCreateRootAlloc {messageFee : UInt64} {ti : UInt16} {title : Bytes}
    (hS : OwnKeys R accounts) (hV : FirstIn V accounts 5) (hP : FirstPays V Z accounts)
    (hT : ∀ p t, (keysOf accounts)[0]? = some p → (keysOf accounts)[1]? = some t → t ∉ Z ∧ t ≠ p) :
    Respects (Alike V Z) (processCreateRootAlloc R sv accounts messageFee ti title) := by
  refine respects_bind (respects_failIf _ _) fun _ _ => respects_next fun p as₁ e₁ =>
    respects_next fun t as₂ e₂ => respects_next fun al as₃ e₃ => respects_next fun st as₄ e₄ =>
    respects_next fun ts as₅ e₅ => respects_next fun sys as₆ e₆ => ?_
  subst e₆ e₅ e₄ e₃ e₂ e₁
  have ht : t.key ∈ V := hV _ (by simp [keysOf])
  have hal : al.key ∈ V := hV _ (by simp [keysOf])
  have hst : st.key ∈ V := hV _ (by simp [keysOf])
  have hts : ts.key ∈ V := hV _ (by simp [keysOf])
  have hp : Pays V Z p.key := hP _ rfl
  obtain ⟨htz, hne⟩ := hT p.key t.key rfl rfl
  refine respects_bind (respects_require _ _) fun _ hsig =>
    respects_bind (respects_require _ _) fun _ _ => respects_bind (respects_require _ _) fun _ _ =>
    respects_bind (respects_require _ _) fun _ _ => respects_bind (respects_require _ _) fun _ _ =>
    respects_bind (respects_require _ _) fun _ _ =>
    respects_bind (respects_loadSettings hst) fun _ _ =>
    respects_bind (respects_orFail _ _) fun found hfind =>
    respects_bind respects_assertPda fun _ hpda =>
    respects_bind respects_validateTreasuryShard fun bump hval => ?_
  have hal_ne := signed_ne hS List.mem_cons_self hsig
    (asserted (q := .alloc t.key 0) hfind hpda)
  have hts_ne : ts.key ≠ p.key := by
    obtain ⟨s, s', hval⟩ := hval
    exact signed_ne hS List.mem_cons_self hsig (validateTreasuryShard_ok hval).2.1
  exact respects_bind (respects_assertUninitialized ht) fun _ _ =>
    respects_bind (respects_assertUninitialized hal) fun _ _ =>
    respects_bind (respects_ensureShardInitialized hp hts hts_ne) fun _ _ =>
    respects_bind (respects_invokeCreateAccount hp ht htz hne) fun _ _ =>
    respects_bind (respects_orFail _ _) fun _ _ =>
    respects_bind (respects_collectFeeToShard hp hts) fun _ _ =>
    respects_bind (respects_createPdaAccount hp hal hal_ne) fun _ _ =>
    respects_bind (respects_serializeInto ht) fun _ _ => respects_serializeInto hal

theorem respects_processPrepareAlloc {seq : UInt32} (hS : OwnKeys R accounts)
    (hV : FirstIn V accounts 4) (hP : FirstPays V Z accounts) :
    Respects (Alike V Z) (processPrepareAlloc R sv accounts seq) := by
  refine respects_next fun p as₁ e₁ => respects_next fun cur as₂ e₂ =>
    respects_next fun new as₃ e₃ => respects_next fun t as₄ e₄ => respects_next fun sys as₅ e₅ => ?_
  subst e₅ e₄ e₃ e₂ e₁
  have hcur : cur.key ∈ V := hV _ (by simp [keysOf])
  have hnew : new.key ∈ V := hV _ (by simp [keysOf])
  have ht : t.key ∈ V := hV _ (by simp [keysOf])
  refine respects_bind (respects_require _ _) fun _ hsig =>
    respects_bind (respects_require _ _) fun _ _ => respects_bind (respects_require _ _) fun _ _ =>
    respects_bind (respects_require _ _) fun _ _ => respects_bind (respects_require _ _) fun _ _ =>
    respects_bind (respects_loadAlloc hcur) fun _ _ => respects_bind (respects_failIf _ _) fun _ _ =>
    respects_bind (respects_failIf _ _) fun _ _ => respects_bind (respects_loadThread ht) fun _ _ =>
    respects_bind (respects_failIf _ _) fun _ _ => respects_bind (respects_orFail _ _) fun n _ =>
    respects_bind (respects_orFail _ _) fun found hfind =>
    respects_bind respects_assertPda fun _ hpda => ?_
  have hne := signed_ne hS List.mem_cons_self hsig (asserted (q := .alloc t.key n) hfind hpda)
  exact respects_bind (respects_assertUninitialized hnew) fun _ _ =>
    respects_bind (respects_createPdaAccount (hP _ rfl) hnew hne) fun _ _ =>
    respects_bind (respects_serializeInto hnew) fun _ _ =>
    respects_bind (respects_orFail _ _) fun _ _ => respects_serializeInto ht

theorem respects_updateThread {update : ThreadNode → ThreadNode} (hV : FirstIn V accounts 2) :
    Respects (Alike V Z) (updateThread R accounts update) := by
  refine respects_next fun p as₁ e₁ => respects_next fun t as₂ e₂ => ?_
  subst e₂ e₁
  have ht : t.key ∈ V := hV _ (by simp [keysOf])
  exact respects_bind (respects_loadAuthorThread ht) fun _ _ => respects_serializeInto ht

/-! ### Access -/

theorem respects_processInitThreadAccess {enabled : Bool} {ti : UInt16} (hS : OwnKeys R accounts)
    (hV : FirstIn V accounts 4) (hP : FirstPays V Z accounts) :
    Respects (Alike V Z) (processInitThreadAccess R sv accounts enabled ti) := by
  refine respects_next fun p as₁ e₁ => respects_next fun t as₂ e₂ =>
    respects_next fun ac as₃ e₃ => respects_next fun ts as₄ e₄ => respects_next fun sys as₅ e₅ => ?_
  subst e₅ e₄ e₃ e₂ e₁
  have ht : t.key ∈ V := hV _ (by simp [keysOf])
  have hac : ac.key ∈ V := hV _ (by simp [keysOf])
  have hts : ts.key ∈ V := hV _ (by simp [keysOf])
  have hp : Pays V Z p.key := hP _ rfl
  refine respects_bind (respects_require _ _) fun _ hsig =>
    respects_bind (respects_require _ _) fun _ _ => respects_bind (respects_require _ _) fun _ _ =>
    respects_bind (respects_require _ _) fun _ _ => respects_bind (respects_loadThread ht) fun _ _ =>
    respects_bind (respects_failIf _ _) fun _ _ =>
    respects_bind (respects_orFail _ _) fun found hfind =>
    respects_bind respects_assertPda fun _ hpda =>
    respects_bind (respects_assertUninitialized hac) fun _ _ =>
    respects_bind respects_validateTreasuryShard fun bump hval => ?_
  have hac_ne := signed_ne hS List.mem_cons_self hsig (asserted (q := .access t.key) hfind hpda)
  have hts_ne : ts.key ≠ p.key := by
    obtain ⟨s, s', hval⟩ := hval
    exact signed_ne hS List.mem_cons_self hsig (validateTreasuryShard_ok hval).2.1
  exact respects_bind (respects_ensureShardInitialized hp hts hts_ne) fun _ _ =>
    respects_bind (respects_collectFeeToShard hp hts) fun _ _ =>
    respects_bind (respects_createPdaAccount hp hac hac_ne) fun _ _ => respects_serializeInto hac

theorem respects_updateAccess {update : ThreadAccess → ThreadAccess} (hV : FirstIn V accounts 2) :
    Respects (Alike V Z) (updateAccess R accounts update) := by
  refine respects_next fun p as₁ e₁ => respects_next fun ac as₂ e₂ => ?_
  subst e₂ e₁
  have hac : ac.key ∈ V := hV _ (by simp [keysOf])
  exact respects_bind (respects_loadAdminAccess hac) fun _ _ => respects_serializeInto hac

/-- The entry of an admin instruction is at its own address. -/
theorem respects_addToList {w : Pubkey} {status : UInt8} (hV : FirstIn V accounts 3)
    (hP : FirstPays V Z accounts)
    (hne : ∀ p en, (keysOf accounts)[0]? = some p → (keysOf accounts)[2]? = some en → en ≠ p) :
    Respects (Alike V Z) (addToList R sv accounts w status) := by
  refine respects_next fun p as₁ e₁ => respects_next fun ac as₂ e₂ =>
    respects_next fun en as₃ e₃ => respects_next fun sys as₄ e₄ => ?_
  subst e₄ e₃ e₂ e₁
  have hac : ac.key ∈ V := hV _ (by simp [keysOf])
  have hen : en.key ∈ V := hV _ (by simp [keysOf])
  exact respects_bind (respects_require _ _) fun _ _ => respects_bind (respects_require _ _)
    fun _ _ => respects_bind (respects_require _ _) fun _ _ =>
    respects_bind (respects_loadAdminAccess hac) fun _ _ =>
    respects_bind (respects_setAccessEntryStatus (hP _ rfl) hen (hne p.key en.key rfl rfl)) fun _ _ =>
    respects_onlyIf fun _ => respects_adjustWhitelistCount hac

theorem respects_removeFromList {w : Pubkey} {status : UInt8} (hV : FirstIn V accounts 3)
    (hne : ∀ p en, (keysOf accounts)[0]? = some p → (keysOf accounts)[2]? = some en →
      en ∉ Z ∧ en ≠ p) :
    Respects (Alike V Z) (removeFromList R accounts w status) := by
  refine respects_next fun p as₁ e₁ => respects_next fun ac as₂ e₂ =>
    respects_next fun en as₃ e₃ => respects_next fun sys as₄ e₄ => ?_
  subst e₄ e₃ e₂ e₁
  have hp : p.key ∈ V := hV _ (by simp [keysOf])
  have hac : ac.key ∈ V := hV _ (by simp [keysOf])
  have hen : en.key ∈ V := hV _ (by simp [keysOf])
  obtain ⟨hz, hne⟩ := hne p.key en.key rfl rfl
  refine respects_bind (respects_require _ _) fun _ _ => respects_bind (respects_require _ _)
    fun _ _ => respects_bind (respects_loadAdminAccess hac) fun _ _ =>
    respects_bind ?_ fun _ _ => respects_onlyIf fun _ => respects_adjustWhitelistCount hac
  exact respects_bind (respects_orFail _ _) fun _ _ => respects_bind respects_assertPda fun _ _ =>
    respects_bind (respects_isUninitialized hen) fun _ _ => respects_bind (respects_failIf _ _)
      fun _ _ => respects_bind (respects_loadBoundAccessEntry hen) fun _ _ =>
        respects_bind (respects_failIf _ _) fun _ _ =>
          respects_closeProgramAccount hen hz hp hne.symm

theorem respects_processRequestAccess {ti : UInt16} {ai : UInt8} (hS : OwnKeys R accounts)
    (hV : FirstIn V accounts 7) (hP : FirstPays V Z accounts) :
    Respects (Alike V Z) (processRequestAccess R sv accounts ti ai) := by
  refine respects_next fun p as₁ e₁ => respects_next fun ac as₂ e₂ =>
    respects_next fun en as₃ e₃ => respects_next fun t as₄ e₄ => respects_next fun st as₅ e₅ =>
    respects_next fun ts as₆ e₆ => respects_next fun au as₇ e₇ =>
    respects_next fun sys as₈ e₈ => ?_
  subst e₈ e₇ e₆ e₅ e₄ e₃ e₂ e₁
  have hac : ac.key ∈ V := hV _ (by simp [keysOf])
  have hen : en.key ∈ V := hV _ (by simp [keysOf])
  have ht : t.key ∈ V := hV _ (by simp [keysOf])
  have hst : st.key ∈ V := hV _ (by simp [keysOf])
  have hts : ts.key ∈ V := hV _ (by simp [keysOf])
  have hau : au.key ∈ V := hV _ (by simp [keysOf])
  have hp : Pays V Z p.key := hP _ rfl
  refine respects_bind (respects_require _ _) fun _ hsig =>
    respects_bind (respects_require _ _) fun _ _ => respects_bind (respects_require _ _) fun _ _ =>
    respects_bind (respects_require _ _) fun _ _ =>
    respects_bind respects_assertFeeShardAccounts fun _ _ =>
    respects_bind (respects_assertOwnedBy hac) fun _ _ =>
    respects_bind (respects_orFail _ _) fun _ _ => respects_bind respects_assertPda fun _ _ =>
    respects_bind (respects_loadThreadAccess hac) fun _ _ =>
    respects_bind (respects_failIf _ _) fun _ _ => respects_bind (respects_failIf _ _) fun _ _ =>
    respects_bind (respects_loadThread ht) fun _ _ =>
    respects_bind (respects_orFail _ _) fun found hfind =>
    respects_bind respects_assertPda fun _ hpda =>
    respects_bind (respects_isUninitialized hen) fun _ _ => ?_
  have hen_ne := signed_ne hS List.mem_cons_self hsig
    (asserted (q := .entry t.key p.key) hfind hpda)
  have hnot : ¬ R.IsPda p.key := by
    obtain ⟨s, s', hsig⟩ := hsig
    exact hS _ ⟨p, List.mem_cons_self, (assertSigner_eq_ok.mp hsig).1, rfl⟩
  exact respects_bind (respects_onlyIf fun _ =>
      respects_bind (respects_loadBoundAccessEntry hen) fun _ _ =>
        respects_bind (respects_failIf _ _) fun _ _ => respects_throw _) fun _ _ =>
    respects_bind (respects_loadSettings hst) fun _ _ =>
    respects_bind (respects_prepareFeeShards hp hnot hts hau) fun _ _ =>
    respects_bind (respects_transferFeeSplit hp hau hts) fun _ _ =>
    respects_bind (respects_setAccessEntryStatus hp hen hen_ne) fun _ _ =>
    respects_adjustWhitelistCount hac

/-! ### Messages -/

theorem respects_gatingOf {ac : AccountInfo} {t : Pubkey} (hac : ac.key ∈ V) :
    Respects (Alike V Z) (gatingOf R ac t) :=
  respects_bind (respects_isUninitialized hac) fun _ _ => respects_ite (fun _ => respects_pure _)
    fun _ => respects_bind (respects_assertOwnedBy hac) fun _ _ =>
      respects_bind (respects_loadThreadAccess hac) fun _ _ => respects_bind (respects_failIf _ _)
        fun _ _ => respects_pure _

theorem respects_standingOf {p en : AccountInfo} {t au : Pubkey} (hen : en.key ∈ V) :
    Respects (Alike V Z) (standingOf R p en t au) :=
  respects_bind (respects_isUninitialized hen) fun _ _ => respects_ite (fun _ => respects_pure _)
    fun _ => respects_bind (respects_loadBoundAccessEntry hen) fun _ _ =>
      respects_bind (respects_failIf _ _) fun _ _ => respects_pure _

/-- What a post to the thread `t` by `p` looks at besides the accounts it takes first. -/
structure SeesThread (R : Runtime) (V : Set Pubkey) (t p : Pubkey) : Prop where
  access : ∀ k, R.HasAddress (.access t) k → k ∈ V
  entry : ∀ k, R.HasAddress (.entry t p) k → k ∈ V
  content : ∀ seq slot k, R.HasAddress (.content t seq slot) k → k ∈ V

theorem respects_accessStage {p ac en : AccountInfo} {t au : Pubkey}
    (hac : R.HasAddress (.access t) ac.key → ac.key ∈ V)
    (hen : R.HasAddress (.entry t p.key) en.key → en.key ∈ V) :
    Respects (Alike V Z) (accessStage R p ac en t au) :=
  respects_bind (respects_orFail _ _) fun _ hfind => respects_bind respects_assertPda fun _ hpda =>
    respects_bind (respects_orFail _ _) fun _ hfind' =>
    respects_bind respects_assertPda fun _ hpda' =>
    respects_bind (respects_gatingOf (hac (asserted (q := .access t) hfind hpda))) fun _ _ =>
    respects_bind (respects_standingOf (hen (asserted (q := .entry t p.key) hfind' hpda')))
      fun _ _ => respects_bind (respects_failIf _ _) fun _ _ => respects_pure _

theorem respects_fillFreeSlot {e : FillEnv} {post : Post} {c : CandidateSlot} {a : AccountInfo}
    {b : UInt8} (hp : Pays V Z e.payer.key) (ha : a.key ∈ V) (hne : a.key ≠ e.payer.key)
    (hts : e.treasuryShard.key ∈ V) (hau : e.authorFeeShard.key ∈ V) :
    Respects (Alike V Z) (fillFreeSlot R sv e post c a b) :=
  respects_bind (respects_require _ _) fun _ _ =>
    respects_bind (respects_createPdaAccount hp ha hne) fun _ _ =>
    respects_bind (respects_serializeInto ha) fun _ _ => respects_bind (respects_orFail _ _)
      fun _ _ => respects_bind (respects_orFail _ _) fun _ _ => respects_bind (respects_failIf _ _)
      fun _ _ => respects_bind (respects_collectFeeToShard hp hts) fun _ _ =>
        respects_onlyIf fun _ => respects_transferFeeSplit hp hau hts

theorem respects_fillCandidates {e : FillEnv} {post : Post}
    {cs : List (CandidateSlot × AccountInfo)} (hp : Pays V Z e.payer.key)
    (hpda : ¬ R.IsPda e.payer.key) (hsee : SeesThread R V e.threadKey e.payer.key)
    (hts : e.treasuryShard.key ∈ V) (hau : e.authorFeeShard.key ∈ V) :
    Respects (Alike V Z) (fillCandidates R sv e post cs) := by
  induction cs with
  | nil => exact respects_throw _
  | cons x cs ih =>
    obtain ⟨c, a⟩ := x
    refine respects_bind (respects_failIf _ _) fun _ _ => respects_bind (respects_failIf _ _)
      fun _ _ => respects_bind (respects_orFail _ _) fun found hfind =>
      respects_bind respects_assertPda fun _ hassert => ?_
    have haddr := asserted (q := .content e.threadKey c.allocSeq c.slot) hfind hassert
    have ha := hsee.content _ _ _ haddr
    exact respects_bind (respects_isUninitialized ha) fun _ _ => respects_ite
      (fun _ => respects_fillFreeSlot hp ha (fun h => hpda (h ▸ haddr.isPda)) hts hau) fun _ => ih

theorem respects_processFillSlot {post : Post} {cs : List CandidateSlot} {ti : UInt16} {ai : UInt8}
    (hS : OwnKeys R accounts) (hV : FirstIn V accounts 5) (hP : FirstPays V Z accounts)
    (hsee : ∀ p t, (keysOf accounts)[0]? = some p → (keysOf accounts)[1]? = some t →
      SeesThread R V t p) :
    Respects (Alike V Z) (processFillSlot R sv accounts post cs ti ai) := by
  refine respects_bind (respects_failIf _ _) fun _ _ =>
    respects_bind (respects_onlyIf fun _ => respects_failIf _ _) fun _ _ =>
    respects_bind (respects_failIf _ _) fun _ _ => respects_next fun p as₁ e₁ =>
    respects_next fun t as₂ e₂ => respects_next fun st as₃ e₃ => respects_next fun ts as₄ e₄ =>
    respects_next fun au as₅ e₅ => respects_next fun sys as₆ e₆ => ?_
  subst e₆ e₅ e₄ e₃ e₂ e₁
  have ht : t.key ∈ V := hV _ (by simp [keysOf])
  have hst : st.key ∈ V := hV _ (by simp [keysOf])
  have hts : ts.key ∈ V := hV _ (by simp [keysOf])
  have hau : au.key ∈ V := hV _ (by simp [keysOf])
  have hp : Pays V Z p.key := hP _ rfl
  have hsee := hsee p.key t.key rfl rfl
  refine respects_bind (respects_require _ _) fun _ hsig =>
    respects_bind respects_assertFeeShardAccounts fun _ _ =>
    respects_bind (respects_loadThread ht) fun thread _ =>
    respects_bind (respects_loadSettings hst) fun _ _ =>
    respects_bind respects_validateFeeShards fun bumps hval =>
    respects_bind (respects_failIf _ _) fun _ _ => respects_bind (respects_orFail _ _) fun ac _ =>
    respects_bind (respects_orFail _ _) fun en _ => ?_
  obtain ⟨s, s', hval⟩ := hval
  obtain ⟨hshards, -⟩ := validateFeeShards_ok hval
  have hnot : ¬ R.IsPda p.key := by
    obtain ⟨s, s', hsig⟩ := hsig
    exact hS _ ⟨p, List.mem_cons_self, (assertSigner_eq_ok.mp hsig).1, rfl⟩
  have hts_ne := signed_ne hS List.mem_cons_self hsig hshards.treasury_addr
  have hau_ne := signed_ne hS List.mem_cons_self hsig hshards.author_addr
  exact respects_bind (respects_accessStage (hsee.access _) (hsee.entry _)) fun _ _ =>
    respects_bind (respects_ensureFeeShardsInitialized hp hts hau hts_ne hau_ne) fun _ _ =>
    respects_fillCandidates hp hnot hsee hts hau

theorem respects_processAppendContent {chunk : Bytes} {ti : UInt16} {ai : UInt8}
    (hS : OwnKeys R accounts) (hV : FirstIn V accounts 6) (hP : FirstPays V Z accounts) :
    Respects (Alike V Z) (processAppendContent R sv accounts chunk ti ai) := by
  refine respects_next fun p as₁ e₁ => respects_next fun c as₂ e₂ => respects_next fun t as₃ e₃ =>
    respects_next fun st as₄ e₄ => respects_next fun ts as₅ e₅ => respects_next fun au as₆ e₆ =>
    respects_next fun sys as₇ e₇ => ?_
  subst e₇ e₆ e₅ e₄ e₃ e₂ e₁
  have hc : c.key ∈ V := hV _ (by simp [keysOf])
  have ht : t.key ∈ V := hV _ (by simp [keysOf])
  have hst : st.key ∈ V := hV _ (by simp [keysOf])
  have hts : ts.key ∈ V := hV _ (by simp [keysOf])
  have hp : Pays V Z p.key := hP _ rfl
  refine respects_bind (respects_require _ _) fun _ hsig =>
    respects_bind (respects_require _ _) fun _ _ =>
    respects_bind (respects_assertOwnedBy hc) fun _ _ =>
    respects_bind respects_assertFeeShardAccounts fun _ _ =>
    respects_bind (respects_loadThread ht) fun _ _ =>
    respects_bind (respects_loadSettings hst) fun settings _ =>
    respects_bind respects_validateFeeShards fun bumps hval => ?_
  obtain ⟨s, s', hval⟩ := hval
  obtain ⟨hshards, -⟩ := validateFeeShards_ok hval
  have hts_ne := signed_ne hS List.mem_cons_self hsig hshards.treasury_addr
  refine respects_bind (respects_loadContent hc) fun content _ =>
    respects_bind (respects_failIf _ _) fun _ _ => respects_bind (respects_failIf _ _) fun _ _ =>
    respects_bind (respects_orFail _ _) fun _ _ => respects_bind (respects_failIf _ _) fun _ _ =>
    respects_bind (respects_failIf _ _) fun _ _ =>
    respects_bind (respects_resize hc) fun _ _ => ?_
  have htop := respects_topUp (n := sv.rent (ContentNode.size (content.body ++ chunk).length)) hp hc
    fun _ _ _ => topUp_iff
  have hfee : Respects (Alike V Z) (onlyIf (0 < sv.rent (ContentNode.size (content.body ++
      chunk).length) - sv.rent (ContentNode.size content.body.length)) (do
        ensureShardInitialized R sv p ts sys [treasuryShardSeed, serialize ti] bumps.1
        collectBaseFee sv (sv.rent (ContentNode.size (content.body ++ chunk).length) -
          sv.rent (ContentNode.size content.body.length)) settings.baseFeeBps.toNat p ts)) :=
    respects_onlyIf fun _ => respects_bind (respects_ensureShardInitialized hp hts hts_ne) fun _ _ =>
      respects_collectFeeToShard hp hts
  have hrest := respects_bind htop fun _ _ => respects_bind hfee fun _ _ =>
    respects_serializeInto (x := ({ content with body := content.body ++ chunk } : ContentNode)) hc
  rw [bind_assoc] at hrest
  exact hrest

theorem respects_processLikeContent {seq : UInt32} {slot : UInt8} {ti : UInt16} {ai : UInt8}
    {maxFee : UInt64} (hS : OwnKeys R accounts) (hV : FirstIn V accounts 7)
    (hP : FirstPays V Z accounts) :
    Respects (Alike V Z) (processLikeContent R sv accounts seq slot ti ai maxFee) := by
  refine respects_bind (respects_failIf _ _) fun _ _ => respects_next fun p as₁ e₁ =>
    respects_next fun lk as₂ e₂ => respects_next fun c as₃ e₃ => respects_next fun t as₄ e₄ =>
    respects_next fun st as₅ e₅ => respects_next fun ts as₆ e₆ => respects_next fun au as₇ e₇ =>
    respects_next fun sys as₈ e₈ => ?_
  subst e₈ e₇ e₆ e₅ e₄ e₃ e₂ e₁
  have hlk : lk.key ∈ V := hV _ (by simp [keysOf])
  have hc : c.key ∈ V := hV _ (by simp [keysOf])
  have ht : t.key ∈ V := hV _ (by simp [keysOf])
  have hst : st.key ∈ V := hV _ (by simp [keysOf])
  have hts : ts.key ∈ V := hV _ (by simp [keysOf])
  have hau : au.key ∈ V := hV _ (by simp [keysOf])
  have hp : Pays V Z p.key := hP _ rfl
  refine respects_bind (respects_require _ _) fun _ hsig =>
    respects_bind (respects_require _ _) fun _ _ =>
    respects_bind respects_assertFeeShardAccounts fun _ _ =>
    respects_bind (respects_loadContent hc) fun content _ =>
    respects_bind (respects_orFail _ _) fun _ _ => respects_bind respects_assertPda fun _ _ =>
    respects_bind (respects_loadThread ht) fun thread _ =>
    respects_bind (respects_loadSettings hst) fun settings _ => ?_
  have hnot : ¬ R.IsPda p.key := by
    obtain ⟨s, s', hsig⟩ := hsig
    exact hS _ ⟨p, List.mem_cons_self, (assertSigner_eq_ok.mp hsig).1, rfl⟩
  refine respects_bind (respects_prepareFeeShards hp hnot hts hau) fun _ _ =>
    respects_bind (respects_orFail _ _) fun found hfind =>
    respects_bind respects_assertPda fun _ hpda =>
    respects_bind (respects_isUninitialized hlk) fun _ _ => ?_
  have hne := signed_ne hS List.mem_cons_self hsig (asserted (q := .likes t.key seq) hfind hpda)
  exact respects_bind (respects_onlyIf fun _ =>
      respects_bind (respects_createPdaAccount hp hlk hne) fun _ _ =>
        respects_serializeInto hlk) fun _ _ =>
    respects_bind (respects_assertOwnedBy hlk) fun _ _ =>
    respects_bind (respects_loadAllocLikes hlk) fun _ _ =>
    respects_bind (respects_orFail _ _) fun _ _ =>
    respects_bind (respects_serializeInto hlk) fun _ _ =>
    respects_onlyIf fun _ => respects_bind (respects_failIf _ _) fun _ _ =>
      respects_transferFeeSplit hp hau hts

theorem respects_resetLikes {header : ContentHeader} {lk : AccountInfo} (hlk : lk.key ∈ V) :
    Respects (Alike V Z) (resetLikes R header lk) :=
  respects_bind (respects_orFail _ _) fun _ _ => respects_bind respects_assertPda fun _ _ =>
    respects_bind (respects_isUninitialized hlk) fun _ _ => respects_onlyIf fun _ =>
      respects_bind (respects_require _ _) fun _ _ =>
      respects_bind (respects_assertOwnedBy hlk) fun _ _ =>
      respects_bind (respects_loadAllocLikes hlk) fun _ _ =>
      respects_bind (respects_failIf _ _) fun _ _ => respects_bind (respects_orFail _ _) fun _ _ =>
        respects_serializeInto hlk

theorem respects_processCloseAccount (hV : FirstIn V accounts 3)
    (hne : ∀ p c, (keysOf accounts)[0]? = some p → (keysOf accounts)[1]? = some c →
      c ∉ Z ∧ c ≠ p) : Respects (Alike V Z) (processCloseAccount R accounts) := by
  refine respects_next fun p as₁ e₁ => respects_next fun c as₂ e₂ => ?_
  subst e₂ e₁
  have hp : p.key ∈ V := hV _ (by simp [keysOf])
  have hc : c.key ∈ V := hV _ (by simp [keysOf])
  obtain ⟨hz, hcp⟩ := hne p.key c.key rfl rfl
  refine respects_bind (respects_require _ _) fun _ _ => respects_bind (respects_require _ _)
    fun _ _ => respects_bind (respects_assertOwnedBy hc) fun _ _ =>
    respects_bind (respects_readTag hc) fun _ _ => respects_bind (respects_require _ _) fun _ _ =>
    respects_bind (respects_loadContent hc) fun content _ =>
    respects_bind (respects_failIf _ _) fun _ _ => ?_
  cases as₂ with
  | nil => exact respects_closeProgramAccount hc hz hp hcp.symm
  | cons lk rest =>
    exact respects_bind (respects_resetLikes (hV _ (by simp [keysOf]))) fun _ _ =>
      respects_closeProgramAccount hc hz hp hcp.symm

/-! ### Follows -/

theorem respects_openRegistry {p r sys : AccountInfo} {b : UInt8} (hp : Pays V Z p.key)
    (hr : r.key ∈ V) (hne : r.key ≠ p.key) :
    Respects (Alike V Z) (openRegistry R sv p r sys b) :=
  respects_bind (respects_isUninitialized hr) fun _ _ => respects_ite
    (fun _ => respects_bind (respects_createPdaAccount hp hr hne) fun _ _ =>
      respects_bind (respects_serializeInto hr) fun _ _ => respects_pure _)
    fun _ => respects_bind (respects_assertOwnedBy hr) fun _ _ =>
      respects_bind (respects_loadFollowRegistry hr) fun _ _ => respects_bind (respects_failIf _ _)
        fun _ _ => respects_pure _

theorem respects_bumpFollowers {p s sys : AccountInfo} {t : Pubkey} {i b : UInt8}
    (hp : Pays V Z p.key) (hs : s.key ∈ V) (hne : s.key ≠ p.key) :
    Respects (Alike V Z) (bumpFollowers R sv p s sys t i b) :=
  respects_bind (respects_isUninitialized hs) fun _ _ => respects_ite
    (fun _ => respects_bind (respects_createPdaAccount hp hs hne) fun _ _ =>
      respects_serializeInto hs)
    fun _ => respects_bind (respects_loadBoundFollowerShard hs) fun _ _ =>
      respects_bind (respects_orFail _ _) fun _ _ => respects_serializeInto hs

theorem respects_processSubscribe (hS : OwnKeys R accounts) (hV : FirstIn V accounts 4)
    (hP : FirstPays V Z accounts) : Respects (Alike V Z) (processSubscribe R sv accounts) := by
  refine respects_next fun p as₁ e₁ => respects_next fun r as₂ e₂ => respects_next fun s as₃ e₃ =>
    respects_next fun t as₄ e₄ => respects_next fun sys as₅ e₅ => ?_
  subst e₅ e₄ e₃ e₂ e₁
  have hr : r.key ∈ V := hV _ (by simp [keysOf])
  have hs : s.key ∈ V := hV _ (by simp [keysOf])
  have ht : t.key ∈ V := hV _ (by simp [keysOf])
  have hp : Pays V Z p.key := hP _ rfl
  refine respects_bind (respects_require _ _) fun _ hsig =>
    respects_bind (respects_require _ _) fun _ _ => respects_bind (respects_require _ _) fun _ _ =>
    respects_bind (respects_require _ _) fun _ _ => respects_bind (respects_require _ _) fun _ _ =>
    respects_bind (respects_loadThread ht) fun _ _ =>
    respects_bind (respects_orFail _ _) fun found hfind =>
    respects_bind respects_assertPda fun _ hpda =>
    respects_bind (respects_orFail _ _) fun found' hfind' =>
    respects_bind respects_assertPda fun _ hpda' => ?_
  have hr_ne := signed_ne hS List.mem_cons_self hsig
    (asserted (q := .followRegistry p.key) hfind hpda)
  have hs_ne := signed_ne hS List.mem_cons_self hsig
    (asserted (q := .followerShard t.key (followerShardIndex p.key)) hfind' hpda')
  exact respects_bind (respects_openRegistry hp hr hr_ne) fun registry _ =>
    respects_bind (respects_failIf _ _) fun _ _ => respects_bind (respects_failIf _ _) fun _ _ =>
    respects_bind (respects_resize hr) fun _ _ =>
    respects_bind (respects_ensureRentExempt hp hr) fun _ _ =>
    respects_bind (respects_serializeInto hr) fun _ _ => respects_bumpFollowers hp hs hs_ne

theorem respects_processUnsubscribe (hV : FirstIn V accounts 4)
    (hz : ∀ r, (keysOf accounts)[1]? = some r → r ∉ Z) :
    Respects (Alike V Z) (processUnsubscribe R sv accounts) := by
  refine respects_next fun p as₁ e₁ => respects_next fun r as₂ e₂ => respects_next fun s as₃ e₃ =>
    respects_next fun t as₄ e₄ => respects_next fun sys as₅ e₅ => ?_
  subst e₅ e₄ e₃ e₂ e₁
  have hp : p.key ∈ V := hV _ (by simp [keysOf])
  have hr : r.key ∈ V := hV _ (by simp [keysOf])
  have hs : s.key ∈ V := hV _ (by simp [keysOf])
  have ht : t.key ∈ V := hV _ (by simp [keysOf])
  exact respects_bind (respects_require _ _) fun _ _ => respects_bind (respects_require _ _)
    fun _ _ => respects_bind (respects_require _ _) fun _ _ =>
    respects_bind (respects_require _ _) fun _ _ => respects_bind (respects_require _ _) fun _ _ =>
    respects_bind (respects_assertOwnedBy hr) fun _ _ =>
    respects_bind (respects_loadThread ht) fun _ _ => respects_bind (respects_orFail _ _) fun _ _ =>
    respects_bind respects_assertPda fun _ _ => respects_bind (respects_orFail _ _) fun _ _ =>
    respects_bind respects_assertPda fun _ _ =>
    respects_bind (respects_loadFollowRegistry hr) fun _ _ =>
    respects_bind (respects_failIf _ _) fun _ _ => respects_bind (respects_orFail _ _) fun _ _ =>
    respects_bind (respects_resize hr) fun _ _ =>
    respects_bind (respects_serializeInto hr) fun _ _ =>
    respects_bind (respects_refundExcess hr (hz _ rfl) hp) fun _ _ =>
    respects_bind (respects_isUninitialized hs) fun _ _ => respects_bind (respects_failIf _ _)
      fun _ _ => respects_bind (respects_loadBoundFollowerShard hs) fun _ _ =>
        respects_serializeInto hs

/-! ### Sweeps -/

/-- All of these are free. -/
def Ledger.AllFree (F : Set Pubkey) (σ : Ledger) : Prop := ∀ k ∈ F, σ.Free k

/-- Alike, and the accounts in `F` are free in both. -/
def AlikeFree (V Z F : Set Pubkey) (σ τ : Ledger) : Prop :=
  Alike V Z σ τ ∧ σ.AllFree F ∧ τ.AllFree F

variable {F : Set Pubkey}

/-- A computation that writes nothing. -/
theorem respects_reading {α : Type} {x : Handler α} (h : Respects (Alike V Z) x)
    (hx : ∀ σ a σ', x σ = .ok (a, σ') → σ' = σ) : Respects (AlikeFree V Z F) x :=
  h.keeping fun σ a σ' hs hQ => hx σ a σ' hs ▸ hQ

/-- A free shard is passed over. -/
theorem sweepShards_free {I : Type} {w a : AccountInfo} {r : Nat} {i : I}
    {validate : AccountInfo → I → Handler UInt8} {xs : List (AccountInfo × I)}
    (hf : σ.Free a.key) :
    sweepShards R w r validate ((a, i) :: xs) σ = sweepShards R w r validate xs σ := by
  rw [sweepShards, bind_of_ok (isUninitialized_eq_ok.mpr ⟨rfl, rfl⟩),
    if_pos (decide_eq_true hf)]

theorem respects_sweepShards {I : Type} {w : AccountInfo} {r : Nat}
    {validate : AccountInfo → I → Handler UInt8} {xs : List (AccountInfo × I)} (hw : w.key ∈ V)
    (hval : ∀ a i, Respects (AlikeFree V Z F) (validate a i))
    (hxs : ∀ x ∈ xs, x.1.key ∈ F ∨ x.1.key ∈ V ∧ x.1.key ∉ Z) :
    Respects (AlikeFree V Z F) (sweepShards R w r validate xs) := by
  induction xs with
  | nil => exact respects_pure _
  | cons x xs ih =>
    obtain ⟨a, i⟩ := x
    have ih := ih fun x hx => hxs x (List.mem_cons_of_mem _ hx)
    rcases hxs (a, i) List.mem_cons_self with hF | ⟨ha, hz⟩
    · intro σ τ hR u σ' hrun
      rw [sweepShards_free (hR.2.1 _ hF)] at hrun
      obtain ⟨τ', hrun', hR'⟩ := ih σ τ hR u σ' hrun
      exact ⟨τ', (sweepShards_free (hR.2.2 _ hF)).trans hrun', hR'⟩
    · have hfresh : Respects (AlikeFree V Z F) (isUninitialized a) :=
        respects_reading (respects_isUninitialized ha) fun _ _ _ h => (isUninitialized_eq_ok.mp h).2
      have howned : Respects (AlikeFree V Z F) (assertOwnedBy a R.programId) :=
        respects_reading (respects_assertOwnedBy ha) fun _ _ _ h => (assertOwnedBy_eq_ok.mp h).2
      have hsweep : Respects (AlikeFree V Z F) (sweepShardExcess a w r) := by
        refine (respects_sweepShardExcess ha hz hw).keeping fun σ u σ' hs hQ => ?_
        rw [sweepShardExcess_ok hs]
        exact hQ
      exact respects_bind hfresh fun _ _ => respects_ite (fun _ => ih) fun _ =>
        respects_bind (respects_require _ _) fun _ _ => respects_bind howned fun _ _ =>
        respects_bind (hval a i) fun _ _ => respects_bind hsweep fun _ _ => ih

theorem respects_processSweepTreasury {is : List UInt16} (hV : FirstIn V accounts 2)
    (hrest : ∀ k ∈ (keysOf accounts).drop 2, k ∈ F ∨ k ∈ V ∧ k ∉ Z) :
    Respects (AlikeFree V Z F) (processSweepTreasury R sv accounts is) := by
  refine respects_next fun st as₁ e₁ => respects_next fun w as₂ e₂ => ?_
  subst e₂ e₁
  have hst : st.key ∈ V := hV _ (by simp [keysOf])
  have hw : w.key ∈ V := hV _ (by simp [keysOf])
  refine respects_bind (respects_reading (respects_loadSettings hst) fun _ _ _ h => (loadSettings_ok h).2.2.2)
    fun _ _ => respects_bind (respects_failIf _ _) fun _ _ =>
    respects_bind (respects_require _ _) fun _ _ => respects_bind (respects_failIf _ _) fun _ _ =>
    respects_bind (respects_failIf _ _) fun _ _ =>
    respects_sweepShards hw (fun _ _ => respects_validateTreasuryShard) fun x hx => ?_
  exact hrest _ (List.mem_map_of_mem (List.of_mem_zip hx).1)

theorem respects_processSweepAuthorFees {is : List UInt8} (hV : FirstIn V accounts 2)
    (hrest : ∀ k ∈ (keysOf accounts).drop 2, k ∈ F ∨ k ∈ V ∧ k ∉ Z) :
    Respects (AlikeFree V Z F) (processSweepAuthorFees R sv accounts is) := by
  refine respects_next fun t as₁ e₁ => respects_next fun w as₂ e₂ => ?_
  subst e₂ e₁
  have ht : t.key ∈ V := hV _ (by simp [keysOf])
  have hw : w.key ∈ V := hV _ (by simp [keysOf])
  refine respects_bind (respects_reading (respects_loadThread ht) fun _ _ _ h => (loadThread_ok h).2.2)
    fun _ _ => respects_bind (respects_failIf _ _) fun _ _ =>
    respects_bind (respects_require _ _) fun _ _ => respects_bind (respects_require _ _) fun _ _ =>
    respects_bind (respects_failIf _ _) fun _ _ => respects_bind (respects_failIf _ _) fun _ _ =>
    respects_sweepShards hw (fun _ _ => respects_validateAuthorFeeShard) fun x hx => ?_
  exact hrest _ (List.mem_map_of_mem (List.of_mem_zip hx).1)

end Handlers

end Txtcel
