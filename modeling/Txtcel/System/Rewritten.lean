import Txtcel.System.TwoRuns

/-!
# The record of an account rewritten

`Rewritten t σ τ`: the ledgers differ in the data of the account `t` only, and in both it holds
some. An account that holds data pays for nothing, so a payer whose own record was rewritten was
charged nothing before and is charged nothing after; nobody else notices.
-/

namespace Txtcel

open Lib Exec Borsh Function

variable {R : Runtime} {sv : Sysvars} {σ τ : Ledger} {t k : Pubkey}

/-- The ledgers differ in the data of `t`, which is empty in neither. -/
structure Rewritten (t : Pubkey) (σ τ : Ledger) : Prop where
  lamports : τ.lamports = σ.lamports
  owner : τ.owner = σ.owner
  data : ∀ k, k ≠ t → τ.data k = σ.data k
  before : σ.data t ≠ []
  after : τ.data t ≠ []

namespace Rewritten

/-! ## 1. The relation under the operations -/

theorem setData (h : Rewritten t σ τ) (hk : k ≠ t) (bs : Bytes) :
    Rewritten t (σ.setData k bs) (τ.setData k bs) where
  lamports := h.lamports
  owner := h.owner
  data j hj := by
    rw [Ledger.setData_data, Ledger.setData_data]
    by_cases hjk : j = k
    · rw [hjk, update_self, update_self]
    · rw [update_of_ne hjk, update_of_ne hjk, h.data j hj]
  before := by
    rw [Ledger.setData_data, update_of_ne hk.symm]
    exact h.before
  after := by
    rw [Ledger.setData_data, update_of_ne hk.symm]
    exact h.after

theorem setOwner (h : Rewritten t σ τ) (k o : Pubkey) :
    Rewritten t (σ.setOwner k o) (τ.setOwner k o) :=
  { h with owner := by rw [Ledger.setOwner_owner, Ledger.setOwner_owner, h.owner] }

theorem pay (h : Rewritten t σ τ) (p k : Pubkey) (n : Nat) :
    Rewritten t (σ.pay p k n) (τ.pay p k n) :=
  { h with lamports := by rw [Ledger.pay, Ledger.pay, h.lamports] }

theorem free_iff (h : Rewritten t σ τ) : τ.Free k ↔ σ.Free k := by
  rw [Ledger.Free, Ledger.Free, h.owner]
  by_cases hk : k = t
  · subst hk
    exact and_congr_right fun _ => iff_of_false h.after h.before
  · rw [h.data k hk]

/-- A free account is not the one that holds the record. -/
theorem ne_of_free (h : Rewritten t σ τ) (hf : σ.Free k) : k ≠ t := by
  rintro rfl
  exact h.before hf.2

/-- **Whoever can pay is not the one whose record was rewritten**, and can pay as before. -/
theorem canPay (h : Rewritten t σ τ) {p d : AccountInfo} {n : Nat} (hc : CanPay σ p d n) :
    CanPay τ p d n := by
  have hp : p.key ≠ t := fun heq => h.before (heq ▸ hc.empty)
  refine ⟨hc.signer, hc.writable, hc.dst_writable, (h.data _ hp).trans hc.empty, ?_, ?_, ?_⟩
  · rw [h.lamports]
    exact hc.enough
  · rw [h.owner]
    exact hc.owner
  · rw [(h.pay p.key d.key n).lamports]
    exact hc.room

/-- Off the rewritten account the ledgers look alike. -/
theorem alike (h : Rewritten t σ τ) : Alike {k | k ≠ t} ∅ σ τ where
  data := h.data
  owner k _ := congrFun h.owner k
  le k _ := (congrFun h.lamports k).ge
  same k _ _ := congrFun h.lamports k
  supply := .inl rfl

end Rewritten

/-! ## 2. Steps of the handlers -/

variable {p a s sys : AccountInfo}

/-- What only reads, and not the rewritten account, reads the same. -/
theorem rewritten_of_reading {α : Type} {x : Handler α} (hx : Respects (Alike {k | k ≠ t} ∅) x)
    (hread : ∀ σ v σ', x σ = .ok (v, σ') → σ' = σ) : Respects (Rewritten t) x := by
  intro σ τ h v σ' hrun
  obtain rfl := hread σ v σ' hrun
  obtain ⟨τ', hrun', -⟩ := hx σ' τ h.alike v σ' hrun
  obtain rfl := hread τ v τ' hrun'
  exact ⟨τ', hrun', h⟩

theorem rewritten_dataOf (ha : a.key ≠ t) : Respects (Rewritten t) (dataOf a) :=
  respects_read (g := fun σ => σ.data a.key) (fun _ => rfl) fun _ _ h => h.data _ ha

theorem rewritten_serializeInto {α : Type} [Borsh α] {x : α} (ha : a.key ≠ t) :
    Respects (Rewritten t) (serializeInto a x) :=
  respects_bind (rewritten_dataOf ha) fun _ _ => respects_bind (respects_orFail _ _) fun _ _ =>
    respects_modify fun _ _ h => h.setData ha _

theorem rewritten_createPdaAccount {space : Nat} {seeds : List Bytes} (hne : a.key ≠ p.key) :
    Respects (Rewritten t) (createPdaAccount R sv p a sys space seeds) := by
  intro σ τ h u σ' hrun
  obtain ⟨hsys, hfree, hsig, hw, hpay, rfl⟩ := (createPdaAccount_iff hne).mp hrun
  have hlam : τ.lamports a.key = σ.lamports a.key := congrFun h.lamports _
  refine ⟨_, (createPdaAccount_iff hne).mpr
    ⟨hsys, h.free_iff.mpr hfree, hsig, hw, fun hcond => ?_, rfl⟩, ?_⟩
  · rw [hlam] at hcond ⊢
    exact h.canPay (hpay hcond)
  · rw [Ledger.create, Ledger.create, hlam]
    exact ((h.pay _ _ _).setData (h.ne_of_free hfree) _).setOwner _ _

theorem rewritten_collectFeeToShard {n : Nat} :
    Respects (Rewritten t) (collectFeeToShard sv n p s) := by
  intro σ τ h u σ' hrun
  obtain ⟨hpay, rfl⟩ := collectFeeToShard_iff.mp hrun
  have hlam : τ.lamports s.key = σ.lamports s.key := congrFun h.lamports _
  refine ⟨_, collectFeeToShard_iff.mpr ⟨fun hn => ?_, rfl⟩, ?_⟩
  · rw [hlam]
    exact h.canPay (hpay hn)
  · unfold Ledger.collect
    split
    · exact h
    · rw [hlam]
      exact h.pay _ _ _

theorem rewritten_transferFeeSplit {n cut : Nat} :
    Respects (Rewritten t) (transferFeeSplit sv n cut p a s) :=
  respects_bind (respects_onlyIf fun _ => rewritten_collectFeeToShard) fun _ _ =>
    respects_onlyIf fun _ => rewritten_collectFeeToShard

theorem rewritten_fillFreeSlot {e : FillEnv} {post : Post} {c : CandidateSlot} {b : UInt8}
    (ha : a.key ≠ t) (hne : a.key ≠ e.payer.key) :
    Respects (Rewritten t) (fillFreeSlot R sv e post c a b) :=
  respects_bind (respects_require _ _) fun _ _ =>
    respects_bind (rewritten_createPdaAccount hne) fun _ _ =>
    respects_bind (rewritten_serializeInto ha) fun _ _ => respects_bind (respects_orFail _ _)
      fun _ _ => respects_bind (respects_orFail _ _) fun _ _ => respects_bind (respects_failIf _ _)
      fun _ _ => respects_bind rewritten_collectFeeToShard fun _ _ =>
        respects_onlyIf fun _ => rewritten_transferFeeSplit

theorem rewritten_isUninitialized : Respects (Rewritten t) (isUninitialized a) := by
  intro σ τ h v σ' hrun
  obtain ⟨rfl, rfl⟩ := isUninitialized_eq_ok.mp hrun
  exact ⟨τ, isUninitialized_eq_ok.mpr ⟨decide_eq_decide.mpr h.free_iff.symm, rfl⟩, h⟩

theorem rewritten_ensureFeeShardsInitialized {ts au : AccountInfo} {th : Pubkey} {ti : UInt16}
    {ai b c : UInt8} (hts : ts.key ≠ p.key) (hau : au.key ≠ p.key) :
    Respects (Rewritten t) (ensureFeeShardsInitialized R sv p ts au sys th ti ai b c) :=
  respects_bind (respects_bind rewritten_isUninitialized fun _ _ =>
    respects_onlyIf fun _ => rewritten_createPdaAccount hts) fun _ _ =>
      respects_bind rewritten_isUninitialized fun _ _ =>
        respects_onlyIf fun _ => rewritten_createPdaAccount hau

/-- No message is at the rewritten account, and none pays. -/
theorem rewritten_fillCandidates {e : FillEnv} {post : Post}
    {cs : List (CandidateSlot × AccountInfo)} (ht : ¬ R.IsPda t) (hp : ¬ R.IsPda e.payer.key) :
    Respects (Rewritten t) (fillCandidates R sv e post cs) := by
  induction cs with
  | nil => exact respects_throw _
  | cons x cs ih =>
    obtain ⟨c, a⟩ := x
    refine respects_bind (respects_failIf _ _) fun _ _ => respects_bind (respects_failIf _ _)
      fun _ _ => respects_bind (respects_orFail _ _) fun found hfind =>
      respects_bind respects_assertPda fun _ hassert => ?_
    have hpda := (asserted (q := .content e.threadKey c.allocSeq c.slot) hfind hassert).isPda
    have hfill : Respects (Rewritten t) (fillFreeSlot R sv e post c a found.2) :=
      rewritten_fillFreeSlot (fun h => ht (h ▸ hpda)) fun h => hp (h ▸ hpda)
    exact respects_bind rewritten_isUninitialized fun _ _ =>
      respects_ite (fun _ => hfill) fun _ => ih

/-- The growth of another thread than the one whose record was rewritten. -/
theorem rewritten_processPrepareAlloc {accounts : List AccountInfo} {seq : UInt32}
    (hS : OwnKeys R accounts) (ht : ¬ R.IsPda t)
    (hcur : ∀ k, (keysOf accounts)[1]? = some k → k ≠ t)
    (hthread : ∀ k, (keysOf accounts)[3]? = some k → k ≠ t) :
    Respects (Rewritten t) (processPrepareAlloc R sv accounts seq) := by
  refine respects_next fun p as₁ e₁ => respects_next fun cur as₂ e₂ =>
    respects_next fun new as₃ e₃ => respects_next fun th as₄ e₄ =>
    respects_next fun sys as₅ e₅ => ?_
  subst e₅ e₄ e₃ e₂ e₁
  have hcur : cur.key ≠ t := hcur _ rfl
  have hth : th.key ≠ t := hthread _ rfl
  refine respects_bind (respects_require _ _) fun _ hsig =>
    respects_bind (respects_require _ _) fun _ _ => respects_bind (respects_require _ _) fun _ _ =>
    respects_bind (respects_require _ _) fun _ _ => respects_bind (respects_require _ _) fun _ _ =>
    respects_bind (rewritten_of_reading (respects_loadAlloc hcur) fun _ _ _ h =>
      (loadAlloc_ok h).2.2.2) fun _ _ => respects_bind (respects_failIf _ _) fun _ _ =>
    respects_bind (respects_failIf _ _) fun _ _ =>
    respects_bind (rewritten_of_reading (respects_loadThread hth) fun _ _ _ h =>
      (loadThread_ok h).2.2) fun _ _ =>
    respects_bind (respects_failIf _ _) fun _ _ => respects_bind (respects_orFail _ _) fun n _ =>
    respects_bind (respects_orFail _ _) fun found hfind =>
    respects_bind respects_assertPda fun _ hpda => ?_
  have haddr := asserted (q := .alloc th.key n) hfind hpda
  have hne := signed_ne hS List.mem_cons_self hsig haddr
  have hnew : new.key ≠ t := fun heq => ht (heq ▸ haddr.isPda)
  exact respects_bind (rewritten_of_reading (respects_assertUninitialized hnew) fun _ _ _ h =>
      (assertUninitialized_eq_ok.mp h).2) fun _ _ =>
    respects_bind (rewritten_createPdaAccount hne) fun _ _ =>
    respects_bind (rewritten_serializeInto hnew) fun _ _ =>
    respects_bind (respects_orFail _ _) fun _ _ => rewritten_serializeInto hth

end Txtcel
