import Txtcel.Properties.Funds
import Txtcel.System.Deployment
import Txtcel.System.TwoRuns

/-!
# Lamports at an address nobody has opened yet

Anybody can send lamports to an address of the program before the account there exists. Two runs of
one instruction are compared, from a store and from the same store with such lamports added.

* `Prefunded R σ σ'`: `σ'` is `σ` with lamports added to free addresses of the program;
* `SameOutcome`: equal data and owners; nobody is left with less, and only the payer and the
  addresses that were sent something hold more;
* `prefunding_harmless`: the instruction succeeds again, with the same outcome.

An account that already belongs to the program is not free, so what is closed or swept holds the same
in both runs; everything else the handlers do with a balance is to pay what is missing (`Alike`).
-/

namespace Txtcel

open Lib Exec

variable {R : Runtime} {sv : Sysvars} {accounts : List AccountInfo} {ix : ProgramInstruction}
  {σ σ' τ τ' : Ledger} {Z : Set Pubkey} {k p : Pubkey}

/-! ## 1. The two stores -/

/-- More lamports, and only on addresses of the program that are still free. -/
structure Prefunded (R : Runtime) (σ σ' : Ledger) : Prop where
  data : σ'.data = σ.data
  owner : σ'.owner = σ.owner
  le : ∀ k, σ.lamports k ≤ σ'.lamports k
  pda : ∀ k, σ'.lamports k ≠ σ.lamports k → R.IsPda k
  free : ∀ k, σ'.lamports k ≠ σ.lamports k → σ.Free k
  supply : total σ'.lamports < 2 ^ 64

/-- The addresses that hold more. -/
def endowed (σ σ' : Ledger) : Set Pubkey := {k | σ'.lamports k ≠ σ.lamports k}

/-- The first account, when it signs: who pays for creations and fees. -/
def payers (accounts : List AccountInfo) : Set Pubkey :=
  {p | (keysOf accounts)[0]? = some p ∧ p ∈ signers accounts}

/-- What two runs that ended in `τ` and `τ'` have in common. -/
structure SameOutcome (accounts : List AccountInfo) (σ σ' τ τ' : Ledger) : Prop where
  data : τ'.data = τ.data
  owner : τ'.owner = τ.owner
  /-- What a signer pays is no more. -/
  signer : ∀ k ∈ signers accounts,
    (σ'.lamports k : Int) - τ'.lamports k ≤ (σ.lamports k : Int) - τ.lamports k
  /-- What was created holds no less. -/
  created : ∀ k, σ.Free k → ¬ τ.Free k → τ.lamports k ≤ τ'.lamports k
  same : ∀ k, k ∉ payers accounts → σ'.lamports k = σ.lamports k → τ'.lamports k = τ.lamports k

namespace Prefunded

theorem alike (h : Prefunded R σ σ') (hZ : ∀ k ∈ endowed σ σ', k ∈ Z) :
    Alike Set.univ Z σ σ' where
  data k _ := congrFun h.data k
  owner k _ := congrFun h.owner k
  le k _ := h.le k
  same k _ hk := by
    by_contra hne
    exact hk (hZ k hne)
  supply := .inr h.supply

/-- An account that exists holds the same in both stores. -/
theorem of_owned (h : Prefunded R σ σ') (ho : σ.owner k = R.programId) : k ∉ endowed σ σ' :=
  fun hk => R.programId_ne (ho ▸ (h.free k hk).1)

/-- So does a wallet. -/
theorem of_wallet (h : Prefunded R σ σ') (hk : ¬ R.IsPda k) : k ∉ endowed σ σ' :=
  fun hmem => hk (h.pda k hmem)

theorem sameOutcome (h : Prefunded R σ σ') (hS : OwnKeys R accounts)
    (hZ : ∀ k ∈ Z, k ∈ endowed σ σ' ∨ k ∈ payers accounts) (hτ : Alike Set.univ Z τ τ') :
    SameOutcome accounts σ σ' τ τ' where
  data := funext fun k => hτ.data k trivial
  owner := funext fun k => hτ.owner k trivial
  signer k hk := by
    have hsame : σ'.lamports k = σ.lamports k := not_not.mp (h.of_wallet (hS k hk))
    have hle := hτ.le k trivial
    omega
  created k _ _ := hτ.le k trivial
  same k hk hsame := hτ.same k trivial fun hmem => (hZ k hmem).elim (fun hne => hne hsame) hk

/-- One address that was sent something. -/
theorem setLamports {n m : Nat} (hk : R.IsPda k) (hf : σ.Free k) (hle : m ≤ n)
    (ht : total σ.lamports + n < 2 ^ 64) (hm : σ.lamports k = m) :
    Prefunded R σ (σ.setLamports k n) := by
  have hother : ∀ j, (σ.setLamports k n).lamports j ≠ σ.lamports j → j = k := by
    intro j hne
    by_contra hj
    exact hne (Function.update_of_ne hj _ _)
  have hup := total_update σ.lamports k n
  refine ⟨rfl, rfl, fun j => ?_, fun j hj => hother j hj ▸ hk, fun j hj => hother j hj ▸ hf, ?_⟩
  · rw [Ledger.setLamports_lamports]
    by_cases hj : j = k
    · rw [hj, Function.update_self, hm]
      exact hle
    · rw [Function.update_of_ne hj]
  · rw [Ledger.setLamports_lamports]
    omega

/-! ## 2. One instruction from both -/

/-- An instruction that only reads balances of accounts that exist. -/
theorem unpaid {x : Handler Unit} (h : Prefunded R σ σ') (hS : OwnKeys R accounts)
    (hrun : x σ = .ok ((), τ)) (hx : Respects (Alike Set.univ (endowed σ σ')) x) :
    ∃ τ', x σ' = .ok ((), τ') ∧ SameOutcome accounts σ σ' τ τ' := by
  obtain ⟨τ', hrun', hτ⟩ := hx σ σ' (h.alike fun _ hk => hk) () τ hrun
  exact ⟨τ', hrun', h.sameOutcome hS (fun _ hk => .inl hk) hτ⟩

/-- An instruction whose first account pays. -/
theorem paid {x : Handler Unit} (h : Prefunded R σ σ') (hS : OwnKeys R accounts)
    (hp : (keysOf accounts)[0]? = some p) (hsig : p ∈ signers accounts)
    (hrun : x σ = .ok ((), τ))
    (hx : FirstPays Set.univ (endowed σ σ' ∪ payers accounts) accounts →
      Respects (Alike Set.univ (endowed σ σ' ∪ payers accounts)) x) :
    ∃ τ', x σ' = .ok ((), τ') ∧ SameOutcome accounts σ σ' τ τ' := by
  have hP : FirstPays Set.univ (endowed σ σ' ∪ payers accounts) accounts := by
    intro q hq
    obtain rfl : p = q := Option.some.inj (hp.symm.trans hq)
    exact ⟨trivial, .inr (.inr ⟨hp, hsig⟩)⟩
  obtain ⟨τ', hrun', hτ⟩ := hx hP σ σ' (h.alike fun _ hk => .inl hk) () τ hrun
  exact ⟨τ', hrun', h.sameOutcome hS (fun _ hk => hk) hτ⟩

/-- A sweep skips what is free. -/
theorem swept {x : Handler Unit} (h : Prefunded R σ σ') (hS : OwnKeys R accounts)
    (hrun : x σ = .ok ((), τ))
    (hx : Respects (AlikeFree Set.univ (endowed σ σ') (endowed σ σ')) x) :
    ∃ τ', x σ' = .ok ((), τ') ∧ SameOutcome accounts σ σ' τ τ' := by
  have hfree : σ.AllFree (endowed σ σ') := fun k hk => h.free k hk
  have hfree' : σ'.AllFree (endowed σ σ') := by
    intro k hk
    rw [Ledger.Free, h.owner, h.data]
    exact h.free k hk
  obtain ⟨τ', hrun', hτ, -⟩ := hx σ σ' ⟨h.alike fun _ hk => hk, hfree, hfree'⟩ () τ hrun
  exact ⟨τ', hrun', h.sameOutcome hS (fun _ hk => .inl hk) hτ⟩

end Prefunded

theorem firstIn_univ (n : Nat) : FirstIn Set.univ accounts n := fun _ _ => trivial

theorem seesThread_univ (t : Pubkey) : SeesThread R Set.univ t p :=
  ⟨fun _ _ => trivial, fun _ _ => trivial, fun _ _ _ _ => trivial⟩

/-- The account at a position that is known. -/
theorem eq_of_position {i : Nat} {j : Pubkey} (h : (keysOf accounts)[i]? = some k)
    (h' : (keysOf accounts)[i]? = some j) : k = j := Option.some.inj (h.symm.trans h')

theorem not_mem_union {E P : Set Pubkey} (hE : k ∉ E) (hP : k ∉ P) : k ∉ E ∪ P :=
  fun h => h.elim hE hP

/-- **The instruction succeeds again, with the same outcome.** -/
theorem Prefunded.outcome (h : Prefunded R σ σ') (hT : σ.Tidy R) (hS : OwnKeys R accounts)
    (hrun : processInstruction R sv accounts ix σ = .ok ((), τ)) :
    ∃ τ', processInstruction R sv accounts ix σ' = .ok ((), τ') ∧
      SameOutcome accounts σ σ' τ τ' := by
  cases ix with
  | createRootAlloc fee i title =>
    obtain ⟨d, hd, -, -, -⟩ := processCreateRootAlloc_ok hrun
    refine h.paid hS (getElem?_of_take hd.keys (by omega)) hd.payer_signed hrun fun hP =>
      respects_processCreateRootAlloc hS (firstIn_univ 5) hP fun q t hq ht => ?_
    obtain rfl := eq_of_position (getElem?_of_take hd.keys (by omega)) hq
    obtain rfl := eq_of_position (getElem?_of_take hd.keys (by omega)) ht
    refine ⟨not_mem_union (h.of_wallet (hS _ hd.thread_signed)) fun hmem => ?_, hd.thread_ne_payer⟩
    exact hd.thread_ne_payer (eq_of_position hmem.1 (getElem?_of_take hd.keys (by omega)))
  | fillSlot kind body candidates ti ai rs rp maxFee =>
    obtain ⟨d, hd, -⟩ := processFillSlot_ok hT hrun
    exact h.paid hS (getElem?_of_take hd.keys (by omega)) hd.signer hrun fun hP =>
      respects_processFillSlot hS (firstIn_univ 5) hP fun _ _ _ _ => seesThread_univ _
  | prepareAlloc seq =>
    obtain ⟨d, hd, -⟩ := processPrepareAlloc_ok hrun
    exact h.paid hS (getElem?_of_take hd.keys (by omega)) hd.payer_signed hrun fun hP =>
      respects_processPrepareAlloc hS (firstIn_univ 4) hP
  | sweepTreasury is =>
    refine h.swept hS hrun (respects_processSweepTreasury (firstIn_univ 2) fun k _ => ?_)
    exact (em (k ∈ endowed σ σ')).imp_right fun hk => ⟨trivial, hk⟩
  | sweepAuthorFees is =>
    refine h.swept hS hrun (respects_processSweepAuthorFees (firstIn_univ 2) fun k _ => ?_)
    exact (em (k ∈ endowed σ σ')).imp_right fun hk => ⟨trivial, hk⟩
  | closeAccount =>
    obtain ⟨d, hd⟩ := processCloseAccount_ok hS hrun
    refine h.unpaid hS hrun (respects_processCloseAccount (firstIn_univ 3) fun q c hq hc => ?_)
    obtain rfl := eq_of_position (getElem?_of_take hd.keys (by omega)) hq
    obtain rfl := eq_of_position (getElem?_of_take hd.keys (by omega)) hc
    exact ⟨h.of_owned hd.holds.owner, hd.payer_ne.symm⟩
  | initSettings treasury =>
    obtain ⟨d, hd, -⟩ := processInitSettings_ok hrun
    exact h.paid hS (getElem?_of_take hd.keys (by omega)) hd.signer hrun fun hP =>
      respects_processInitSettings hS (firstIn_univ 3) hP
  | setTreasury _ | setAdmin _ => exact h.unpaid hS hrun (respects_updateSettings (firstIn_univ 2))
  | setBaseFee _ | setAuthorFeeCut _ | setEntryCut _ | setLikeCut _ =>
    exact h.unpaid hS hrun (respects_updatePlatformSetting (firstIn_univ 2))
  | setMessageFee _ | setLikeFee _ =>
    exact h.unpaid hS hrun (respects_updateThread (firstIn_univ 2))
  | initThreadAccess enabled i =>
    obtain ⟨d, hd, -⟩ := processInitThreadAccess_ok hrun
    exact h.paid hS (getElem?_of_take hd.keys (by omega)) hd.signer hrun fun hP =>
      respects_processInitThreadAccess hS (firstIn_univ 4) hP
  | setThreadAccess _ | setEntryFee _ =>
    exact h.unpaid hS hrun (respects_updateAccess (firstIn_univ 2))
  | addToWhitelist w | addToBlacklist w | addToFeeWhitelist w =>
    obtain ⟨d, hd, -⟩ := addToList_ok hT hrun
    refine h.paid hS (getElem?_of_take hd.keys (by omega)) hd.signer hrun fun hP =>
      respects_addToList (firstIn_univ 3) hP fun q en hq hen => ?_
    obtain rfl := eq_of_position (getElem?_of_take hd.keys (by omega)) hq
    obtain rfl := eq_of_position (getElem?_of_take hd.keys (by omega)) hen
    exact fun heq => hS _ hd.signer (heq ▸ hd.entry_addr.isPda)
  | removeFromWhitelist w | removeFromBlacklist w | removeFromFeeWhitelist w =>
    obtain ⟨d, hd, -⟩ := removeFromList_ok hT hS hrun
    refine h.unpaid hS hrun (respects_removeFromList (firstIn_univ 3) fun q en hq hen => ?_)
    obtain rfl := eq_of_position (getElem?_of_take hd.keys (by omega)) hq
    obtain rfl := eq_of_position (getElem?_of_take hd.keys (by omega)) hen
    exact ⟨h.of_owned hd.entry_holds.owner, hd.authority_ne.symm⟩
  | requestAccess ti ai =>
    obtain ⟨d, hd⟩ := processRequestAccess_ok hT hrun
    exact h.paid hS (getElem?_of_take hd.keys (by omega)) hd.signer hrun fun hP =>
      respects_processRequestAccess hS (firstIn_univ 7) hP
  | likeContent seq slot ti ai maxFee =>
    obtain ⟨d, hd, -⟩ := processLikeContent_ok hrun
    exact h.paid hS (getElem?_of_take hd.keys (by omega)) hd.signer hrun fun hP =>
      respects_processLikeContent hS (firstIn_univ 7) hP
  | appendContent chunk ti ai =>
    obtain ⟨d, hd, -⟩ := processAppendContent_ok hrun
    exact h.paid hS (getElem?_of_take hd.keys (by omega)) hd.signer hrun fun hP =>
      respects_processAppendContent hS (firstIn_univ 6) hP
  | subscribe =>
    obtain ⟨d, hd⟩ := processSubscribe_ok hrun
    exact h.paid hS (getElem?_of_take hd.keys (by omega)) hd.signer hrun fun hP =>
      respects_processSubscribe hS (firstIn_univ 4) hP
  | unsubscribe =>
    obtain ⟨d, hd⟩ := processUnsubscribe_ok hrun
    refine h.unpaid hS hrun (respects_processUnsubscribe (firstIn_univ 4) fun r hr => ?_)
    obtain rfl := eq_of_position (getElem?_of_take hd.keys (by omega)) hr
    exact h.of_owned hd.registry_holds.owner

/-- **Pre-funding cannot grief**: what succeeds from a reachable store succeeds from the same store
    with lamports sent to free addresses of the program, with the same outcome, and costs no signer
    more. -/
theorem prefunding_harmless (hr : (program R).Reach anyStep σ) (h : Prefunded R σ σ')
    (hs : (program R).step σ (.call sv accounts ix) τ) :
    ∃ τ', (program R).step σ' (.call sv accounts ix) τ' ∧ SameOutcome accounts σ σ' τ τ' := by
  obtain ⟨τ', hrun', hτ⟩ := h.outcome (reach_tidy hr) hs.1 hs.2
  exact ⟨τ', ⟨hs.1, hrun'⟩, hτ⟩

namespace Local

/-- The gated channel, and 5 lamports at the address of its first slot. -/
def endowedSlot : Ledger :=
  let σ := afterCalls localnet history genesis
  σ.setLamports (addressOf (.content channel 0 0)) 5

theorem total_genesis : total genesis.lamports = 2000000 := by
  have hlam : genesis.lamports =
      Function.update (Function.update (fun _ => 0) alice 1000000) bob 1000000 := by
    funext k
    show (if k = alice ∨ k = bob then 1000000 else 0) = _
    by_cases hb : k = bob
    · rw [hb, Function.update_self, if_pos (.inr rfl)]
    · rw [Function.update_of_ne hb]
      by_cases ha : k = alice
      · rw [ha, Function.update_self, if_pos (.inl rfl)]
      · rw [Function.update_of_ne ha, if_neg (not_or.mpr ⟨ha, hb⟩)]
  have h1 := total_update (fun _ => 0) alice 1000000
  have h2 := total_update (Function.update (fun _ => 0) alice 1000000) bob 1000000
  have hne : bob ≠ alice := by decide
  rw [Function.update_of_ne hne] at h2
  rw [hlam]
  have h0 := total_zero (α := Pubkey)
  omega

/-- Calls keep what there was at the beginning. -/
theorem total_calls {calls : List Call}
    (hpath : ∃ tr, (program localnet).Path anyStep genesis tr (afterCalls localnet calls genesis) ∧
      tr.map (·.2.1) = calls.map Call.event) :
    total (afterCalls localnet calls genesis).lamports = 2000000 := by
  obtain ⟨tr, hp, htr⟩ := hpath
  have hcalls : ∀ x ∈ tr, x.2.1 ≠ Event.outside := by
    intro x hx he
    have hmem : Event.outside ∈ calls.map Call.event := htr ▸ he ▸ List.mem_map_of_mem hx
    obtain ⟨c, -, hc⟩ := List.mem_map.mp hmem
    cases hc
  exact (total_of_calls (.init genesis_init) hp hcalls).trans total_genesis

theorem total_history : total (afterCalls localnet history genesis).lamports = 2000000 :=
  total_calls (history_path fun _ _ _ _ => trivial)

theorem total_inUse : total (afterCalls localnet inUse genesis).lamports = 2000000 :=
  total_calls (inUse_path fun _ _ _ _ => trivial)

theorem endowedSlot_prefunded :
    Prefunded localnet (afterCalls localnet history genesis) endowedSlot := by
  refine .setLamports (hasAddress_addressOf _).isPda (by decide +kernel) (Nat.zero_le 5) ?_
    (by decide +kernel)
  rw [total_history]
  decide

end Local

/-- A post into a slot that somebody sent lamports to. -/
theorem prefunding_harmless_slot :
    ∃ τ', (program localnet).step Local.endowedSlot Local.postBob.event τ' ∧
      SameOutcome Local.postBob.accounts (afterCalls localnet Local.history Local.genesis)
        Local.endowedSlot
        (afterCalls localnet [Local.postBob] (afterCalls localnet Local.history Local.genesis)) τ' :=
  prefunding_harmless (Local.history_reach fun _ _ _ _ => trivial) Local.endowedSlot_prefunded
    Local.postBob_step

end Txtcel
