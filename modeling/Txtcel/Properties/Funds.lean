import Txtcel.Properties.Authority

/-!
# Lamports are conserved, and leave by authorized routes only

* `sweep_*`: what the payments of a sweep do to each balance, also when a shard is listed twice or
  is itself the recipient;
* `Route`: why a balance may decrease, and the instruction that is needed for it;
* `funds_conserved`: every successful instruction keeps the sum of all balances, and every balance
  that decreased did so by a route of that instruction.
-/

namespace Txtcel

open Lib Function

variable {R : Runtime} {sv : Sysvars} {accounts : List AccountInfo} {σ σ' : Ledger}
  {ix : ProgramInstruction} {k q : Pubkey} {r : Nat} {ks : List Pubkey}

/-! ## 1. Payments and sweeps -/

theorem total_pay {n : Nat} (hn : n ≤ σ.lamports k) :
    total (σ.pay k q n).lamports = total σ.lamports :=
  total_move _ _ _ _ hn

theorem total_sweep : total (σ.sweep r q ks).lamports = total σ.lamports := by
  induction ks generalizing σ with
  | nil => rfl
  | cons k ks ih =>
    unfold Ledger.sweep
    split
    · exact ih
    · rw [ih, total_pay (Nat.sub_le _ _)]

/-- Nothing but the recipient gains. -/
theorem sweep_le {j : Pubkey} (hj : j ≠ q) :
    (σ.sweep r q ks).lamports j ≤ σ.lamports j := by
  induction ks generalizing σ with
  | nil => exact le_refl _
  | cons k ks ih =>
    unfold Ledger.sweep
    split
    · exact ih
    · refine ih.trans ?_
      by_cases hk : j = k
      · subst hk
        rw [Ledger.pay_src _ _ _ _ (Ne.symm hj)]
        exact Nat.sub_le _ _
      · rw [Ledger.pay_other _ _ _ _ _ hk hj]

/-- The recipient never loses. -/
theorem le_sweep : σ.lamports q ≤ (σ.sweep r q ks).lamports q := by
  induction ks generalizing σ with
  | nil => exact le_refl _
  | cons k ks ih =>
    unfold Ledger.sweep
    split
    · exact ih
    · refine le_trans ?_ ih
      by_cases hk : q = k
      · subst hk
        simp only [Ledger.pay, update_self]
        omega
      · rw [Ledger.pay_dst _ _ _ _ hk]
        omega

/-- A balance at or below the minimum is not touched again, except as the recipient. -/
theorem sweep_of_le {j : Pubkey} (hj : j ≠ q) (hle : σ.lamports j ≤ r) :
    (σ.sweep r q ks).lamports j = σ.lamports j := by
  induction ks generalizing σ with
  | nil => rfl
  | cons k ks ih =>
    unfold Ledger.sweep
    split
    · exact ih hle
    · have hsame : (σ.pay k q (σ.lamports k - r)).lamports j = σ.lamports j := by
        by_cases hk : j = k
        · subst hk
          rw [Ledger.pay_src _ _ _ _ (Ne.symm hj)]
          omega
        · rw [Ledger.pay_other _ _ _ _ _ hk hj]
      rw [ih (by rw [hsame]; exact hle), hsame]

/-- **What a sweep debits** is a listed account that was not free, and it is left with the
    minimum. -/
theorem sweep_debit {j : Pubkey} (hlt : (σ.sweep r q ks).lamports j < σ.lamports j) :
    j ≠ q ∧ j ∈ ks ∧ ¬ σ.Free j ∧ (σ.sweep r q ks).lamports j = r := by
  have hj : j ≠ q := by
    rintro rfl
    exact absurd hlt (Nat.not_lt.mpr le_sweep)
  refine ⟨hj, ?_⟩
  induction ks generalizing σ with
  | nil => exact absurd hlt (lt_irrefl _)
  | cons k ks ih =>
    unfold Ledger.sweep at hlt ⊢
    split at hlt
    · rename_i hf
      obtain ⟨hmem, hnf, hr⟩ := ih hlt
      exact ⟨List.mem_cons_of_mem _ hmem, hnf, by rw [if_pos hf]; exact hr⟩
    · rename_i hf
      rw [if_neg hf]
      by_cases hk : j = k
      · subst hk
        -- the first payment leaves the minimum, or nothing had to be paid
        have hpaid := Ledger.pay_src σ j q (σ.lamports j - r) (Ne.symm hj)
        have hle : (σ.pay j q (σ.lamports j - r)).lamports j ≤ r ∨ σ.lamports j ≤ r := by omega
        by_cases hlow : σ.lamports j ≤ r
        · have hsame : (σ.pay j q (σ.lamports j - r)).lamports j = σ.lamports j := by omega
          rw [sweep_of_le hj (by omega)] at hlt
          omega
        · refine ⟨List.mem_cons_self, hf, ?_⟩
          rw [sweep_of_le hj (by omega)]
          omega
      · have hsame := Ledger.pay_other σ j k q (σ.lamports k - r) hk hj
        rw [← hsame] at hlt
        obtain ⟨hmem, hnf, hr⟩ := ih hlt
        exact ⟨List.mem_cons_of_mem _ hmem, hnf, hr⟩

/-! ## 2. Why a balance may decrease -/

/-- The routes lamports leave `k` by in the instruction `ix`, when the accounts in `S` signed. -/
inductive Route (R : Runtime) (sv : Sysvars) (S : Set Pubkey) (ix : ProgramInstruction)
    (σ σ' : Ledger) (k : Pubkey) : Prop where
  /-- A System-owned signer pays. -/
  | signer (hs : k ∈ S) (ho : σ.owner k = systemProgram)
  /-- A message that `CloseAccount` closed goes to its author, whole. -/
  | content (c : ContentNode) (hix : ix = .closeAccount)
      (hc : σ.cell R k = .holds (.content c)) (hclosed : σ'.Free k) (hs : c.header.author ∈ S) (hleft : σ'.lamports k = 0)
      (hpaid : σ'.lamports c.header.author = σ.lamports c.header.author + σ.lamports k)
  /-- An entry that a `RemoveFrom*` of its wallet and status closed goes to the access admin of its
      thread, whole. -/
  | entry (e : AccessEntry) (a : ThreadAccess) (hix : ix.removesFrom = some (e.wallet, e.status))
      (he : σ.cell R k = .holds (.entry e)) (hclosed : σ'.Free k) (ha : (σ.cell R).accessOf R e.thread = some a) (hs : a.admin ∈ S)
      (hleft : σ'.lamports k = 0)
      (hpaid : σ'.lamports a.admin = σ.lamports a.admin + σ.lamports k)
  /-- A registry that `Unsubscribe` shrank keeps the new minimum; the rest goes to its owner. -/
  | registry (x y : FollowRegistry) (hix : ix = .unsubscribe) (hx : σ.cell R k = .holds (.registry x))
      (hy : σ'.cell R k = .holds (.registry y)) (hlt : y.channels.length < x.channels.length)
      (hs : x.owner ∈ S) (hleft : σ'.lamports k = sv.rent (σ'.data k).length)
      (hpaid : σ'.lamports x.owner + σ'.lamports k = σ.lamports x.owner + σ.lamports k)
  /-- A treasury shard that is swept keeps the minimum; only the treasury of the settings gains. -/
  | treasuryShard (i : UInt16) (is : List UInt16) (hix : ix = .sweepTreasury is)
      (hi : i < nTreasuryShards) (ha : R.HasAddress (.treasuryShard i) k) (j : Pubkey) (s : ProgramSettings) (hj : R.HasAddress .settings j)
      (hsettings : σ.cell R j = .holds (.settings s)) (hleft : σ'.lamports k = sv.rent 0)
      (hothers : ∀ w, w ≠ s.treasury → σ'.lamports w ≤ σ.lamports w)
  /-- An author shard that is swept keeps the minimum; only the author of its thread gains, who
      signed. -/
  | authorShard (t : Pubkey) (i : UInt8) (is : List UInt8) (hix : ix = .sweepAuthorFees is)
      (hi : i < nAuthorFeeShards) (ha : R.HasAddress (.authorFee t i) k) (x : ThreadNode)
      (hx : σ.cell R t = .holds (.thread x)) (hs : x.author ∈ S)
      (hleft : σ'.lamports k = sv.rent 0)
      (hothers : ∀ w, w ≠ x.author → σ'.lamports w ≤ σ.lamports w)

/-- What the instruction may do to the balances. -/
structure FundsFrame (R : Runtime) (sv : Sysvars) (S : Set Pubkey) (ix : ProgramInstruction)
    (σ σ' : Ledger) : Prop where
  total_eq : total σ'.lamports = total σ.lamports
  routes : ∀ k, σ'.lamports k < σ.lamports k → Route R sv S ix σ σ' k

/-- A charged signer: the frame of every act that only spends. -/
theorem Ledger.Spends.frame {p : Pubkey} {S : Set Pubkey} (h : σ.Spends p σ') (hp : p ∈ S) :
    FundsFrame R sv S ix σ σ' := by
  refine ⟨h.total_eq, fun k hlt => ?_⟩
  by_cases hk : k = p
  · subst hk
    exact .signer hp (h.payer hlt)
  · exact absurd hlt (Nat.not_lt.mpr (h.others k hk))

/-- Nothing moved. -/
theorem FundsFrame.of_eq {S : Set Pubkey} (h : σ'.lamports = σ.lamports) :
    FundsFrame R sv S ix σ σ' :=
  ⟨by rw [h], fun k hlt => absurd hlt (by rw [h]; exact lt_irrefl _)⟩

theorem swapRemove_lt {xs : List Pubkey} {k : Pubkey} {i : Nat} (h : position xs k = some i) :
    (swapRemove xs i).length < xs.length := by
  rw [length_swapRemove]
  have hne : xs ≠ [] := by
    rintro rfl
    simp [position] at h
  have := List.length_pos_iff.mpr hne
  omega

theorem RemoveEntry.Ok.frame {d : RemoveEntry} (h : d.Ok R accounts σ σ')
    (hix : ix.removesFrom = some (d.wallet, d.status)) :
    FundsFrame R sv (signers accounts) ix σ σ' := by
  have hadm : d.old.admin = d.authority := h.admin
  have hlam : σ'.lamports = (σ.pay d.entry d.authority (σ.lamports d.entry)).lamports := by
    rw [h.post]
    rfl
  refine ⟨by rw [hlam, total_pay (le_refl _)], fun k hlt => ?_⟩
  rw [hlam] at hlt
  have hk : k = d.entry := by
    by_contra hk
    by_cases hka : k = d.authority
    · subst hka
      rw [Ledger.pay_dst _ _ _ _ hk] at hlt
      omega
    · rw [Ledger.pay_other _ _ _ _ _ hk hka] at hlt
      omega
  subst hk
  have he := h.entry_holds.cell rfl
  have ha := h.access_holds.cell h.access_tag
  refine .entry _ d.old hix he ?_ (accessOf_eq_some.mpr ⟨_, h.access_addr, ha, rfl⟩) (hadm ▸ h.signer) ?_ ?_
  · rw [h.post]
    exact ⟨by simp, by simp [h.access_ne.symm]⟩
  · rw [hlam, Ledger.pay_src _ _ _ _ h.authority_ne, Nat.sub_self]
  · rw [hlam, hadm, Ledger.pay_dst _ _ _ _ h.authority_ne]

theorem CloseContent.Ok.frame {d : CloseContent} (h : d.Ok R accounts σ σ') :
    FundsFrame R sv (signers accounts) .closeAccount σ σ' := by
  have hcl : (d.cleared σ).lamports = σ.lamports := by
    unfold CloseContent.cleared
    split <;> rfl
  have hlam : σ'.lamports = (σ.pay d.content d.payer (σ.lamports d.content)).lamports := by
    rw [h.post, Ledger.allot_lamports]
    simp only [Ledger.pay, hcl]
  refine ⟨by rw [hlam, total_pay (le_refl _)], fun k hlt => ?_⟩
  rw [hlam] at hlt
  have hk : k = d.content := by
    by_contra hk
    by_cases hkp : k = d.payer
    · subst hkp
      rw [Ledger.pay_dst _ _ _ _ hk] at hlt
      omega
    · rw [Ledger.pay_other _ _ _ _ _ hk hkp] at hlt
      omega
  subst hk
  have hc := h.holds.cell h.tag
  refine .content d.old rfl hc ?_ (h.author ▸ h.signer) ?_ ?_
  · rw [h.post]
    exact ⟨by simp, by simp⟩
  · rw [hlam, Ledger.pay_src _ _ _ _ h.payer_ne, Nat.sub_self]
  · rw [hlam, h.author, Ledger.pay_dst _ _ _ _ h.payer_ne]

theorem Unsubscribe.Ok.frame {d : Unsubscribe} (hS : OwnKeys R accounts)
    (h : d.Ok R sv accounts σ σ') : FundsFrame R sv (signers accounts) .unsubscribe σ σ' := by
  have hlam : σ'.lamports =
      (σ.pay d.registry d.user (σ.lamports d.registry - d.required sv)).lamports := by
    rw [h.post]
    rfl
  have hne : d.user ≠ d.registry := fun heq => hS _ h.signer (heq ▸ h.registry_addr.isPda)
  refine ⟨by rw [hlam, total_pay (Nat.sub_le _ _)], fun k hlt => ?_⟩
  rw [hlam] at hlt
  have hk : k = d.registry := by
    by_contra hk
    by_cases hku : k = d.user
    · subst hku
      rw [Ledger.pay_dst _ _ _ _ hk] at hlt
      omega
    · rw [Ledger.pay_other _ _ _ _ _ hk hku] at hlt
      omega
  subst hk
  have hsrc := Ledger.pay_src σ d.registry d.user (σ.lamports d.registry - d.required sv) hne
  have hdst := Ledger.pay_dst σ d.registry d.user (σ.lamports d.registry - d.required sv) hne
  have hx := h.registry_holds.cell h.registry_tag
  have hdata : σ'.data d.registry = Borsh.serialize d.new := by
    rw [h.post]
    simp [h.registry_ne]
  refine .registry d.old d.new rfl hx ?_ (swapRemove_lt h.pos_eq) (h.registry_owner ▸ h.signer) ?_ ?_
  · rw [h.cells, update_of_ne h.registry_ne, update_self]
  · rw [hlam, hdata, FollowRegistry.length]
    show _ = d.required sv
    omega
  · rw [hlam, h.registry_owner]
    omega

theorem TreasurySweep.Ok.frame {d : TreasurySweep} {is : List UInt16}
    (h : d.Ok R sv accounts σ σ') :
    FundsFrame R sv (signers accounts) (.sweepTreasury is) σ σ' := by
  have hlam := congrArg Ledger.lamports h.post
  refine ⟨by rw [hlam, total_sweep], fun k hlt => ?_⟩
  rw [hlam] at hlt
  obtain ⟨-, hmem, hnf, hleft⟩ := sweep_debit hlt
  obtain ⟨-, i, hi, ha⟩ := h.shards k hmem hnf
  have hc := h.holds.cell h.tag
  refine .treasuryShard i is rfl hi ha d.settings d.current h.addr hc (by rw [hlam, hleft])
    fun w hw => ?_
  rw [hlam]
  exact sweep_le (by rw [h.recipient]; exact hw)

theorem AuthorSweep.Ok.frame {d : AuthorSweep} {is : List UInt8}
    (h : d.Ok R sv accounts σ σ') :
    FundsFrame R sv (signers accounts) (.sweepAuthorFees is) σ σ' := by
  have hlam := congrArg Ledger.lamports h.post
  refine ⟨by rw [hlam, total_sweep], fun k hlt => ?_⟩
  rw [hlam] at hlt
  obtain ⟨-, hmem, hnf, hleft⟩ := sweep_debit hlt
  obtain ⟨-, i, hi, ha⟩ := h.shards k hmem hnf
  have hc := h.holds.cell h.tag
  refine .authorShard d.thread i is rfl hi ha d.node hc (h.recipient ▸ h.signer)
    (by rw [hlam, hleft]) fun w hw => ?_
  rw [hlam]
  exact sweep_le (by rw [h.recipient]; exact hw)

/-- **The balances after an act.** -/
theorem Act.funds (h : Act R sv accounts σ σ' ix) (hS : OwnKeys R accounts) :
    FundsFrame R sv (signers accounts) ix σ σ' := by
  cases h with
  | initSettings d h => exact h.spends.frame h.signer
  | settingsEdit d h => exact .of_eq (by rw [h.post]; rfl)
  | treasurySweep d h => exact h.frame
  | authorSweep d h => exact h.frame
  | rootAlloc d h => exact h.spends.frame h.payer_signed
  | nextAlloc d h => exact h.spends.frame h.payer_signed
  | threadEdit d h => exact .of_eq (by rw [h.post]; rfl)
  | initAccess d h => exact h.spends.frame h.signer
  | accessEdit d h => exact .of_eq (by rw [h.post]; rfl)
  | setEntry d h => exact h.spends.frame h.signer
  | removeEntry d h hix => exact h.frame hix
  | requestAccess d h => exact h.spends.frame h.signer
  | fillSlot d h => exact h.spends.frame h.signer
  | appendContent d h => exact h.spends.frame h.signer
  | likeContent d h => exact h.spends.frame h.signer
  | closeContent d h => exact h.frame
  | subscribe d h => exact h.spends.frame h.signer
  | unsubscribe d h => exact h.frame hS

/-- **Lamports are conserved and leave only by authorized routes**, in every successful instruction
    from a reachable store, whatever accounts it was given. -/
theorem funds_conserved (h : (program R).Reach anyStep σ)
    (hs : (program R).step σ (.call sv accounts ix) σ') :
    FundsFrame R sv (signers accounts) ix σ σ' :=
  (reach_act h hs).funds hs.1

/-- **Only steps from outside change the sum**: instructions alone keep it over a whole run. -/
theorem total_of_calls {σ₀ : Ledger} {tr : List (Ledger × Event × Ledger)}
    (h0 : (program R).Reach anyStep σ₀) (h : (program R).Path anyStep σ₀ tr σ)
    (hcalls : ∀ x ∈ tr, x.2.1 ≠ .outside) : total σ.lamports = total σ₀.lamports := by
  refine h.invariant (I := fun τ => total τ.lamports = total σ₀.lamports) rfl fun x hx hI => ?_
  obtain ⟨hst, -, tr', hp⟩ := h.mem hx
  have hne := hcalls x hx
  obtain ⟨σ₁, e, σ₂⟩ := x
  cases e with
  | outside => exact absurd rfl hne
  | call sv accounts ix =>
    have hframe := (reach_act (hp.reach h0) hst).funds hst.1
    exact hframe.total_eq.trans hI

/-- A post into a gated channel, fees included, moves lamports and makes none. -/
theorem funds_conserved_post :
    FundsFrame localnet Local.sysvars (signers Local.postBob.accounts) Local.postBob.ix
      (afterCalls localnet Local.history Local.genesis)
      (afterCalls localnet [Local.postBob] (afterCalls localnet Local.history Local.genesis)) :=
  funds_conserved (Local.history_reach fun _ _ _ _ => trivial) Local.postBob_step

end Txtcel
