import Txtcel.Properties.Prefunding
import Txtcel.System.Apart

/-!
# Threads are isolated

An instruction on one thread, and everything bound to another.

* `Act.touches_apart`: it changes nothing of the other thread, and takes no lamports from it;
* `outcome_apart`: it does the same in two stores that differ in the other thread only;
* `thread_isolation`: both, for every reachable store, whatever accounts the caller passes.

One account is not told by its address: a sweep of author shards passes over a shard that nobody
has opened before it looks whose shard it is. Two stores in one of which a foreign shard on the list
is open are therefore told apart (`sweep_sees_other_thread`), and the second half asks that the
accounts on the list of a sweep are open in both or in neither.
-/

namespace Txtcel

open Lib Exec

variable {R : Runtime} {K : Set Pubkey} {sv : Sysvars} {accounts : List AccountInfo}
  {ix : ProgramInstruction} {σ σ' σ₂ τ τ₂ : Ledger} {t t' k : Pubkey}

/-! ## 1. The thread of an act -/

theorem threadOf_of_editsThread (h : ix.EditsThread) :
    ix.threadOf R σ accounts = (keysOf accounts)[1]? := by
  cases ix with
  | setMessageFee fee => rfl
  | setLikeFee fee => rfl
  | _ => exact h.elim

theorem threadOf_of_editsAccess (h : ix.EditsAccess) :
    ix.threadOf R σ accounts = (keysOf accounts)[1]?.bind fun k => (σ.cell R k).thread? := by
  cases ix with
  | setThreadAccess b => rfl
  | setEntryFee fee => rfl
  | _ => exact h.elim

theorem threadOf_of_addsTo {x : Pubkey × UInt8} (h : ix.addsTo = some x) :
    ix.threadOf R σ accounts = (keysOf accounts)[1]?.bind fun k => (σ.cell R k).thread? := by
  cases ix with
  | addToWhitelist w => rfl
  | addToBlacklist w => rfl
  | addToFeeWhitelist w => rfl
  | _ => cases h

theorem threadOf_of_removesFrom {x : Pubkey × UInt8} (h : ix.removesFrom = some x) :
    ix.threadOf R σ accounts = (keysOf accounts)[1]?.bind fun k => (σ.cell R k).thread? := by
  cases ix with
  | removeFromWhitelist w => rfl
  | removeFromBlacklist w => rfl
  | removeFromFeeWhitelist w => rfl
  | _ => cases h

theorem threadOf_of_editsSettings (h : ix.EditsSettings) : ix.threadOf R σ accounts = none := by
  cases ix with
  | setTreasury _ => rfl
  | setBaseFee _ => rfl
  | setAuthorFeeCut _ => rfl
  | setEntryCut _ => rfl
  | setLikeCut _ => rfl
  | setAdmin _ => rfl
  | _ => exact h.elim

/-- The thread that an access account stores. -/
theorem thread_of_access {a : ThreadAccess} (hk : (keysOf accounts)[1]? = some k)
    (ha : σ.Holds R k a) (htag : a.tag = tagAccess)
    (ht : ((keysOf accounts)[1]?.bind fun k => (σ.cell R k).thread?) = some t) : a.thread = t := by
  have hc : σ.cell R k = .holds (.access a) := ha.cell htag
  rw [hk, Option.bind_some, hc] at ht
  exact Option.some.inj ht

/-- The thread that a content account stores. -/
theorem thread_of_content {c : ContentNode} (hk : (keysOf accounts)[1]? = some k)
    (hc : σ.Holds R k c) (htag : c.header.tag = tagContent)
    (ht : ((keysOf accounts)[1]?.bind fun k => (σ.cell R k).thread?) = some t) :
    c.header.thread = t := by
  have hcell : σ.cell R k = .holds (.content c) := hc.cell htag
  rw [hk, Option.bind_some, hcell] at ht
  exact Option.some.inj ht

/-! ## 2. The frame -/

/-- What an account keeps: data and owner, and no lamports leave it. -/
structure Untouched (σ σ' : Ledger) (k : Pubkey) : Prop where
  data : σ'.data k = σ.data k
  owner : σ'.owner k = σ.owner k
  lamports : σ.lamports k ≤ σ'.lamports k

/-- An account at a known position among the first ones. -/
theorem FirstIn.mem {V : Set Pubkey} {n : Nat} (h : FirstIn V accounts n) {ks : List Pubkey}
    (hks : (keysOf accounts).take n = ks) (hk : k ∈ ks) : k ∈ V := h k (hks ▸ hk)

/-- **What another thread's instruction touches is apart.** -/
theorem Act.touches_apart (h : Act R sv accounts σ σ' ix) (e : Elsewhere R K σ accounts ix t')
    (ht : ix.threadOf R σ accounts = some t) (hne : t ≠ t') : Touches (apart R K t') σ σ' := by
  cases h with
  | initSettings d h => cases ht
  | settingsEdit d h hix =>
    rw [threadOf_of_editsSettings hix] at ht
    cases ht
  | treasurySweep d h => cases ht
  | authorSweep d h =>
    obtain rfl : d.thread = t := eq_of_position (by rw [h.keys]; rfl) ht
    exact h.touches (e.authorSweep h hne).2
  | rootAlloc d h =>
    obtain rfl : d.thread = t := eq_of_position (getElem?_of_take h.keys (by omega)) ht
    have hV := e.rootAlloc h hne
    exact h.touches (hV.mem h.keys (by simp)) (hV.mem h.keys (by simp)) (hV.mem h.keys (by simp))
      (hV.mem h.keys (by simp))
  | nextAlloc d h =>
    obtain rfl : d.thread = t := eq_of_position (getElem?_of_take h.keys (by omega)) ht
    have hV := e.nextAlloc h hne
    exact h.touches (hV.mem h.keys (by simp)) (hV.mem h.keys (by simp)) (hV.mem h.keys (by simp))
  | threadEdit d h hix =>
    rw [threadOf_of_editsThread hix] at ht
    obtain rfl : d.thread = t := eq_of_position (getElem?_of_take h.keys (by omega)) ht
    exact h.touches ((e.threadEdit h hne).mem h.keys (by simp))
  | initAccess d h =>
    obtain rfl : d.thread = t := eq_of_position (getElem?_of_take h.keys (by omega)) ht
    have hV := e.initAccess h hne
    exact h.touches (hV.mem h.keys (by simp)) (hV.mem h.keys (by simp)) (hV.mem h.keys (by simp))
  | accessEdit d h hix =>
    rw [threadOf_of_editsAccess hix] at ht
    obtain rfl := thread_of_access (getElem?_of_take h.keys (by omega)) h.holds h.tag ht
    exact h.touches ((e.accessEdit h hne).mem h.keys (by simp))
  | setEntry d h hix =>
    rw [threadOf_of_addsTo hix] at ht
    obtain rfl := thread_of_access (getElem?_of_take h.keys (by omega)) h.access_holds h.access_tag ht
    have hV := e.setEntry h hix hne
    exact h.touches (hV.mem h.keys (by simp)) (hV.mem h.keys (by simp)) (hV.mem h.keys (by simp))
  | removeEntry d h hix =>
    rw [threadOf_of_removesFrom hix] at ht
    obtain rfl := thread_of_access (getElem?_of_take h.keys (by omega)) h.access_holds h.access_tag ht
    have hV := e.removeEntry h hix hne
    exact h.touches (hV.mem h.keys (by simp)) (hV.mem h.keys (by simp))
  | requestAccess d h =>
    obtain rfl : d.thread = t := eq_of_position (getElem?_of_take h.keys (by omega)) ht
    have hV := e.requestAccess h hne
    exact h.touches (hV.mem h.keys (by simp)) (hV.mem h.keys (by simp)) (hV.mem h.keys (by simp))
      (hV.mem h.keys (by simp)) (hV.mem h.keys (by simp))
  | fillSlot d h _ =>
    obtain rfl : d.thread = t := eq_of_position (getElem?_of_take h.keys (by omega)) ht
    have hV := e.fillSlot h hne
    have hsee := e.seesThread (h.thread_holds.live h.thread_tag) h.signer hne
    exact h.touches (hV.mem h.keys (by simp)) (hV.mem h.keys (by simp)) (hV.mem h.keys (by simp))
      (hsee.content _ _ _ h.content_addr)
  | appendContent d h =>
    obtain rfl : d.thread = t := eq_of_position (getElem?_of_take h.keys (by omega)) ht
    have hV := e.appendContent h hne
    exact h.touches (hV.mem h.keys (by simp)) (hV.mem h.keys (by simp)) (hV.mem h.keys (by simp))
  | likeContent d h =>
    obtain rfl : d.thread = t := eq_of_position (getElem?_of_take h.keys (by omega)) ht
    have hV := e.likeContent h hne
    exact h.touches (hV.mem h.keys (by simp)) (hV.mem h.keys (by simp)) (hV.mem h.keys (by simp))
      (hV.mem h.keys (by simp))
  | closeContent d h =>
    obtain rfl := thread_of_content (getElem?_of_take h.keys (by omega)) h.holds h.tag ht
    have hlive := e.live _ (e.content_live h.holds h.tag)
    exact h.touches (e.of_own h.addr rfl rfl hlive hne)
      fun r hr => e.of_own (h.reset r hr).addr rfl rfl hlive hne
  | subscribe d h =>
    obtain rfl : d.thread = t := eq_of_position (getElem?_of_take h.keys (by omega)) ht
    have hV := e.subscribe h hne
    exact h.touches (hV.mem h.keys (by simp)) (hV.mem h.keys (by simp)) (hV.mem h.keys (by simp))
  | unsubscribe d h =>
    obtain rfl : d.thread = t := eq_of_position (getElem?_of_take h.keys (by omega)) ht
    have hV := e.unsubscribe h hne
    exact h.touches (hV.mem h.keys (by simp)) (hV.mem h.keys (by simp))

/-! ## 3. Two stores -/

/-- The two stores agree on everything that is not the thread's. -/
def AgreeOff (R : Runtime) (K : Set Pubkey) (t : Pubkey) (σ τ : Ledger) : Prop :=
  ∀ k, ¬ BoundTo R K t k →
    τ.data k = σ.data k ∧ τ.owner k = σ.owner k ∧ τ.lamports k = σ.lamports k

theorem AgreeOff.symm (h : AgreeOff R K t σ τ) : AgreeOff R K t τ σ := by
  intro k hk
  obtain ⟨hd, ho, hl⟩ := h k hk
  exact ⟨hd.symm, ho.symm, hl.symm⟩

theorem agreeOff_iff : AgreeOff R K t σ τ ↔ Alike (apart R K t) ∅ σ τ := by
  constructor
  · intro h
    exact ⟨fun k hk => (h k hk).1, fun k hk => (h k hk).2.1, fun k hk => le_of_eq (h k hk).2.2.symm,
      fun k hk _ => (h k hk).2.2, .inl rfl⟩
  · intro h k hk
    exact ⟨h.data k hk, h.owner k hk, h.same k hk (Set.notMem_empty k)⟩

/-- On the list of a sweep, the other thread's accounts are open in both stores or in neither. -/
def SameUnopened (R : Runtime) (K : Set Pubkey) (accounts : List AccountInfo)
    (ix : ProgramInstruction) (t' : Pubkey) (σ σ₂ : Ledger) : Prop :=
  ∀ is, ix = .sweepAuthorFees is → ∀ k ∈ keysOf accounts, BoundTo R K t' k →
    (σ.Free k ↔ σ₂.Free k)

/-- The first account is not the other thread's: it may pay. -/
theorem firstPays_apart {n : Nat} (hV : FirstIn (apart R K t') accounts (n + 1)) :
    FirstPays (apart R K t') ∅ accounts := by
  intro p hp
  refine ⟨hV p ?_, .inl rfl⟩
  obtain ⟨hlt, rfl⟩ := List.getElem?_eq_some_iff.mp hp
  exact List.mem_take_iff_getElem.mpr ⟨0, by omega, rfl⟩

/-- **The same instruction does the same** where only the other thread differs. -/
theorem outcome_apart (e : Elsewhere R K σ accounts ix t') (ht : ix.threadOf R σ accounts = some t)
    (hne : t ≠ t') (hagree : Alike (apart R K t') ∅ σ σ₂)
    (hopen : SameUnopened R K accounts ix t' σ σ₂)
    (hrun : processInstruction R sv accounts ix σ = .ok ((), τ)) :
    ∃ τ₂, processInstruction R sv accounts ix σ₂ = .ok ((), τ₂) ∧
      Alike (apart R K t') ∅ τ τ₂ := by
  have hT : σ.Tidy R := e.placed.junk
  cases ix with
  | createRootAlloc fee i title =>
    obtain ⟨d, hd, -, -, -⟩ := processCreateRootAlloc_ok hrun
    obtain rfl : d.thread = t := eq_of_position (getElem?_of_take hd.keys (by omega)) ht
    have hV := e.rootAlloc hd hne
    refine respects_processCreateRootAlloc e.own hV (firstPays_apart hV) (fun q x hq hx => ?_) σ σ₂
      hagree () τ hrun
    obtain rfl := eq_of_position (getElem?_of_take hd.keys (by omega)) hq
    obtain rfl := eq_of_position (getElem?_of_take hd.keys (by omega)) hx
    exact ⟨Set.notMem_empty _, hd.thread_ne_payer⟩
  | fillSlot kind body candidates ti ai rs rp maxFee =>
    obtain ⟨d, hd, -⟩ := processFillSlot_ok hT hrun
    obtain rfl : d.thread = t := eq_of_position (getElem?_of_take hd.keys (by omega)) ht
    have hV := e.fillSlot hd hne
    refine respects_processFillSlot e.own hV (firstPays_apart hV) (fun q x hq hx => ?_) σ σ₂ hagree
      () τ hrun
    obtain rfl := eq_of_position (getElem?_of_take hd.keys (by omega)) hq
    obtain rfl := eq_of_position (getElem?_of_take hd.keys (by omega)) hx
    exact e.seesThread (hd.thread_holds.live hd.thread_tag) hd.signer hne
  | prepareAlloc seq =>
    obtain ⟨d, hd, -⟩ := processPrepareAlloc_ok hrun
    obtain rfl : d.thread = t := eq_of_position (getElem?_of_take hd.keys (by omega)) ht
    have hV := e.nextAlloc hd hne
    exact respects_processPrepareAlloc e.own hV (firstPays_apart hV) σ σ₂ hagree () τ hrun
  | sweepAuthorFees is =>
    obtain ⟨d, hd⟩ := processSweepAuthorFees_ok hrun
    obtain rfl : d.thread = t := eq_of_position (by rw [hd.keys]; rfl) ht
    obtain ⟨hV, hshards⟩ := e.authorSweep hd hne
    -- what is bound to the other thread and listed is free, in both stores
    have hfree : σ.AllFree {k | k ∈ keysOf accounts ∧ BoundTo R K t' k} := by
      intro k hk
      obtain ⟨hk, hb⟩ := hk
      have hdrop : k ∈ d.shards := by
        rw [hd.keys] at hk
        rcases List.mem_cons.mp hk with rfl | hk
        · exact absurd hb (hV _ (by rw [hd.keys]; simp))
        · rcases List.mem_cons.mp hk with rfl | hk
          · exact absurd hb (hV _ (by rw [hd.keys]; simp))
          · exact hk
      by_contra hf
      exact hshards k hdrop hf hb
    have hfree' : σ₂.AllFree {k | k ∈ keysOf accounts ∧ BoundTo R K t' k} :=
      fun k hk => (hopen is rfl k hk.1 hk.2).mp (hfree k hk)
    have hrest : ∀ k ∈ (keysOf accounts).drop 2, k ∈ {k | k ∈ keysOf accounts ∧ BoundTo R K t' k} ∨
        k ∈ apart R K t' ∧ k ∉ (∅ : Set Pubkey) := by
      intro k hk
      by_cases hb : BoundTo R K t' k
      · exact .inl ⟨List.mem_of_mem_drop hk, hb⟩
      · exact .inr ⟨hb, Set.notMem_empty k⟩
    obtain ⟨τ₂, hrun₂, hτ, -⟩ := respects_processSweepAuthorFees hV hrest σ σ₂
      ⟨hagree, hfree, hfree'⟩ () τ hrun
    exact ⟨τ₂, hrun₂, hτ⟩
  | closeAccount =>
    obtain ⟨d, hd⟩ := processCloseAccount_ok e.own hrun
    obtain rfl := thread_of_content (getElem?_of_take hd.keys (by omega)) hd.holds hd.tag ht
    refine respects_processCloseAccount (e.closeContent hd hne) (fun q c hq hc => ?_) σ σ₂ hagree ()
      τ hrun
    obtain rfl := eq_of_position (getElem?_of_take hd.keys (by omega)) hq
    obtain rfl := eq_of_position (getElem?_of_take hd.keys (by omega)) hc
    exact ⟨Set.notMem_empty _, hd.payer_ne.symm⟩
  | setMessageFee fee =>
    obtain ⟨d, hd⟩ := updateThread_ok (fun _ => .messageFee fee) hrun
    obtain rfl : d.thread = t := eq_of_position (getElem?_of_take hd.keys (by omega)) ht
    exact respects_updateThread (e.threadEdit hd hne) σ σ₂ hagree () τ hrun
  | setLikeFee fee =>
    obtain ⟨d, hd⟩ := updateThread_ok (fun _ => .likeFee fee) hrun
    obtain rfl : d.thread = t := eq_of_position (getElem?_of_take hd.keys (by omega)) ht
    exact respects_updateThread (e.threadEdit hd hne) σ σ₂ hagree () τ hrun
  | initThreadAccess enabled i =>
    obtain ⟨d, hd, -⟩ := processInitThreadAccess_ok hrun
    obtain rfl : d.thread = t := eq_of_position (getElem?_of_take hd.keys (by omega)) ht
    have hV := e.initAccess hd hne
    exact respects_processInitThreadAccess e.own hV (firstPays_apart hV) σ σ₂ hagree () τ hrun
  | setThreadAccess b =>
    obtain ⟨d, hd⟩ := updateAccess_ok (fun _ => .enabled b) hT hrun
    obtain rfl := thread_of_access (getElem?_of_take hd.keys (by omega)) hd.holds hd.tag ht
    exact respects_updateAccess (e.accessEdit hd hne) σ σ₂ hagree () τ hrun
  | setEntryFee fee =>
    obtain ⟨d, hd⟩ := updateAccess_ok (fun _ => .entryFee fee) hT hrun
    obtain rfl := thread_of_access (getElem?_of_take hd.keys (by omega)) hd.holds hd.tag ht
    exact respects_updateAccess (e.accessEdit hd hne) σ σ₂ hagree () τ hrun
  | addToWhitelist w | addToBlacklist w | addToFeeWhitelist w =>
    obtain ⟨d, hd, rfl, hs⟩ := addToList_ok hT hrun
    obtain rfl := thread_of_access (getElem?_of_take hd.keys (by omega)) hd.access_holds
      hd.access_tag ht
    have hV := e.setEntry hd (by rw [hs]; rfl) hne
    refine respects_addToList hV (firstPays_apart hV) (fun q en hq hen => ?_) σ σ₂ hagree () τ hrun
    obtain rfl := eq_of_position (getElem?_of_take hd.keys (by omega)) hq
    obtain rfl := eq_of_position (getElem?_of_take hd.keys (by omega)) hen
    exact fun heq => e.own _ hd.signer (heq ▸ hd.entry_addr.isPda)
  | removeFromWhitelist w | removeFromBlacklist w | removeFromFeeWhitelist w =>
    obtain ⟨d, hd, rfl, hs⟩ := removeFromList_ok hT e.own hrun
    obtain rfl := thread_of_access (getElem?_of_take hd.keys (by omega)) hd.access_holds
      hd.access_tag ht
    have hV := e.removeEntry hd (by rw [hs]; rfl) hne
    refine respects_removeFromList hV (fun q en hq hen => ?_) σ σ₂ hagree () τ hrun
    obtain rfl := eq_of_position (getElem?_of_take hd.keys (by omega)) hq
    obtain rfl := eq_of_position (getElem?_of_take hd.keys (by omega)) hen
    exact ⟨Set.notMem_empty _, hd.authority_ne.symm⟩
  | requestAccess ti ai =>
    obtain ⟨d, hd⟩ := processRequestAccess_ok hT hrun
    obtain rfl : d.thread = t := eq_of_position (getElem?_of_take hd.keys (by omega)) ht
    have hV := e.requestAccess hd hne
    exact respects_processRequestAccess e.own hV (firstPays_apart hV) σ σ₂ hagree () τ hrun
  | likeContent seq slot ti ai maxFee =>
    obtain ⟨d, hd, -⟩ := processLikeContent_ok hrun
    obtain rfl : d.thread = t := eq_of_position (getElem?_of_take hd.keys (by omega)) ht
    have hV := e.likeContent hd hne
    exact respects_processLikeContent e.own hV (firstPays_apart hV) σ σ₂ hagree () τ hrun
  | appendContent chunk ti ai =>
    obtain ⟨d, hd, -⟩ := processAppendContent_ok hrun
    obtain rfl : d.thread = t := eq_of_position (getElem?_of_take hd.keys (by omega)) ht
    have hV := e.appendContent hd hne
    exact respects_processAppendContent e.own hV (firstPays_apart hV) σ σ₂ hagree () τ hrun
  | subscribe =>
    obtain ⟨d, hd⟩ := processSubscribe_ok hrun
    obtain rfl : d.thread = t := eq_of_position (getElem?_of_take hd.keys (by omega)) ht
    have hV := e.subscribe hd hne
    exact respects_processSubscribe e.own hV (firstPays_apart hV) σ σ₂ hagree () τ hrun
  | unsubscribe =>
    obtain ⟨d, hd⟩ := processUnsubscribe_ok hrun
    obtain rfl : d.thread = t := eq_of_position (getElem?_of_take hd.keys (by omega)) ht
    exact respects_processUnsubscribe (e.unsubscribe hd hne) (fun _ _ => Set.notMem_empty _) σ σ₂
      hagree () τ hrun
  | _ => cases ht

/-- The stored thread, where it is not the other one, is stored in both. -/
theorem thread?_apart (e : Elsewhere R K σ accounts ix t') (hne : t ≠ t')
    (hagree : AgreeOff R K t' σ σ₂) (h : (σ.cell R k).thread? = some t) :
    (σ₂.cell R k).thread? = some t := by
  have hapart : k ∈ apart R K t' := by
    generalize hc : σ.cell R k = x at h
    cases x with
    | holds a =>
      cases a with
      | access a =>
        obtain rfl : a.thread = t := Option.some.inj h
        obtain ⟨ha, hl⟩ := e.placed.placed k _ hc
        exact e.of_own ha rfl rfl (e.live _ hl) hne
      | content c =>
        obtain rfl : c.header.thread = t := Option.some.inj h
        obtain ⟨ha, hl⟩ := e.placed.placed k _ hc
        exact e.of_own ha rfl rfl (e.live _ hl) hne
      | _ => cases h
    | _ => cases h
  obtain ⟨hd, ho, -⟩ := hagree k hapart
  rw [cell_congr ho hd]
  exact h

theorem threadOf_apart (e : Elsewhere R K σ accounts ix t') (hne : t ≠ t')
    (hagree : AgreeOff R K t' σ σ₂) (h : ix.threadOf R σ accounts = some t) :
    ix.threadOf R σ₂ accounts = some t := by
  have hstored : ((keysOf accounts)[1]?.bind fun k => (σ.cell R k).thread?) = some t →
      ((keysOf accounts)[1]?.bind fun k => (σ₂.cell R k).thread?) = some t := by
    intro hb
    obtain ⟨k, hk, hth⟩ := Option.bind_eq_some_iff.mp hb
    rw [hk]
    exact thread?_apart e hne hagree hth
  cases ix with
  | setThreadAccess _ => exact hstored h
  | setEntryFee _ => exact hstored h
  | addToWhitelist _ => exact hstored h
  | addToBlacklist _ => exact hstored h
  | addToFeeWhitelist _ => exact hstored h
  | removeFromWhitelist _ => exact hstored h
  | removeFromBlacklist _ => exact hstored h
  | removeFromFeeWhitelist _ => exact hstored h
  | closeAccount => exact hstored h
  | _ => exact h

/-! ## 4. Isolation -/

/-- The call does the same in both stores: it succeeds in both or in neither, and what is not the
    thread's is the same afterwards. -/
structure Isolated (R : Runtime) (K : Set Pubkey) (sv : Sysvars) (accounts : List AccountInfo)
    (ix : ProgramInstruction) (t' : Pubkey) (σ σ₂ : Ledger) : Prop where
  succeeds : (∃ τ, (program R).step σ (.call sv accounts ix) τ) ↔
    ∃ τ, (program R).step σ₂ (.call sv accounts ix) τ
  agrees : ∀ τ τ₂, (program R).step σ (.call sv accounts ix) τ →
    (program R).step σ₂ (.call sv accounts ix) τ₂ → AgreeOff R K t' τ τ₂

/-- What a reachable store and a call within `K` give. -/
theorem Elsewhere.of_reach (hK : R.CollisionFree K) (h : (program R).Reach (Within K) σ)
    (hin : Within K σ (.call sv accounts ix) σ) (hown : OwnKeys R accounts) (hpda : ¬ R.IsPda t')
    (hsig : t' ∉ signers accounts) : Elsewhere R K σ accounts ix t' where
  collisionFree := hK
  placed := reach_wellFormed h
  live _ := reach_live_within h
  signed := (hin _ _ _ rfl).1
  named := (hin _ _ _ rfl).2
  own := hown
  notPda := hpda
  unsigned := hsig

/-- **Threads are isolated**: an instruction on `t` that `t'` did not sign leaves everything bound
    to `t'` as it is, and does the same whatever is bound to `t'`. -/
theorem thread_isolation (hK : R.CollisionFree K) (h : (program R).Reach (Within K) σ)
    (hin : Within K σ (.call sv accounts ix) σ) (ht : ix.threadOf R σ accounts = some t)
    (hne : t ≠ t') (hlive : (σ.cell R).Live t') (hsig : t' ∉ signers accounts) :
    (∀ τ, (program R).step σ (.call sv accounts ix) τ → ∀ k, BoundTo R K t' k →
      Untouched σ τ k) ∧
    ∀ σ₂, (program R).Reach (Within K) σ₂ → AgreeOff R K t' σ σ₂ →
      SameUnopened R K accounts ix t' σ σ₂ → Isolated R K sv accounts ix t' σ σ₂ := by
  have hpda : ¬ R.IsPda t' := by
    obtain ⟨x, hx⟩ := hlive
    exact (reach_wellFormed h).placed t' _ hx
  refine ⟨fun τ hs k hb => ?_, fun σ₂ h₂ hagree hopen => ⟨⟨?_, ?_⟩, ?_⟩⟩
  · have e := Elsewhere.of_reach hK h hin hs.1 hpda hsig
    have htouch := (reach_act h hs).touches_apart e ht hne
    have hk : k ∉ apart R K t' := fun hk => hk hb
    exact ⟨htouch.data k hk, htouch.owner k hk, htouch.lamports k hk⟩
  · intro hs
    obtain ⟨τ, hown, hrun⟩ := hs
    have e := Elsewhere.of_reach hK h hin hown hpda hsig
    obtain ⟨τ₂, hrun₂, -⟩ := outcome_apart e ht hne (agreeOff_iff.mp hagree) hopen hrun
    exact ⟨τ₂, hown, hrun₂⟩
  · intro hs
    obtain ⟨τ₂, hown, hrun₂⟩ := hs
    have e := Elsewhere.of_reach hK h hin hown hpda hsig
    have e₂ := Elsewhere.of_reach hK h₂ hin hown hpda hsig
    obtain ⟨τ, hrun, -⟩ := outcome_apart e₂ (threadOf_apart e hne hagree ht) hne
      (agreeOff_iff.mp hagree.symm) (fun is hix k hk hb => (hopen is hix k hk hb).symm) hrun₂
    exact ⟨τ, hown, hrun⟩
  · intro τ τ₂ hs hs₂
    have e := Elsewhere.of_reach hK h hin hs.1 hpda hsig
    obtain ⟨τ', hrun, hτ⟩ := outcome_apart e ht hne (agreeOff_iff.mp hagree) hopen hs.2
    obtain rfl : τ' = τ₂ := congrArg Prod.snd (Except.ok.inj (hrun.symm.trans hs₂.2))
    exact agreeOff_iff.mpr hτ

/-! ## 5. The shard nobody opened -/

/-- Balances may be raised from outside. -/
theorem Outside.of_lamports {f : Pubkey → Nat}
    (h : ∀ k, σ.owner k = R.programId → σ.lamports k ≤ f k) :
    Outside R σ { σ with lamports := f } :=
  ⟨fun _ h => h, fun _ _ => rfl, h, fun _ h h' => absurd h h', fun _ _ h => h⟩

theorem live_of_lamports {f : Pubkey → Nat} (h : (σ.cell R).Live t) :
    (({ σ with lamports := f } : Ledger).cell R).Live t := h

theorem agreeOff_of_lamports (h : ∀ k, ¬ BoundTo R K t k →
    τ.data k = σ.data k ∧ τ.owner k = σ.owner k) :
    AgreeOff R K t { σ with lamports := τ.lamports } τ :=
  fun k hk => ⟨(h k hk).1, (h k hk).2, rfl⟩

/-- No account of the list signs with this key. -/
theorem not_mem_signers (h : accounts.all (fun a => !(a.isSigner && a.key == k)) = true) :
    k ∉ signers accounts := by
  intro hk
  obtain ⟨a, ha, hsig, rfl⟩ := hk
  have hone := List.all_eq_true.mp h a ha
  rw [hsig, Bool.true_and, beq_self_eq_true, Bool.not_true] at hone
  cases hone

namespace Local

/-- A second channel of `alice`. -/
def second : Pubkey := padKey [4]

def openSecond : Call where
  sv := sysvars
  accounts := [signing alice, signing second, passed (addressOf (.alloc second 0)),
    passed (addressOf .settings), passed (addressOf (.treasuryShard 0)), passed systemProgram]
  ix := .createRootAlloc 50 0 [72, 105]

/-- `bob` posts there, which opens an author shard. -/
def postSecond : Call where
  sv := sysvars
  accounts := [signing bob, passed second, passed (addressOf .settings),
    passed (addressOf (.treasuryShard 0)), passed (addressOf (.authorFee second 0)),
    passed systemProgram, passed (addressOf (.content second 0 0)),
    passed (addressOf (.access second)), passed (addressOf (.entry second bob))]
  ix := .fillSlot 0 [104, 105] [⟨0, 0⟩] 0 0 0 0 1000

/-- A sweep of the first channel that lists the second one's shard. -/
def sweepForeign : Call where
  sv := sysvars
  accounts := [passed channel, signing alice, passed (addressOf (.authorFee second 0))]
  ix := .sweepAuthorFees [0]

/-- A new fee for the first channel. -/
def raiseFee : Call where
  sv := sysvars
  accounts := [signing alice, passed channel]
  ix := .setMessageFee 60

def twoChannels : List Call := [openPlatform, openChannel, openSecond]

def opened : Ledger := afterCalls localnet twoChannels genesis

/-- With a message in the second channel. -/
def posted : Ledger := afterCalls localnet [postSecond] opened

/-- Without it, but with the same balances. -/
def unposted : Ledger := { opened with lamports := posted.lamports }

theorem twoChannels_reach : (program localnet).Reach (Within {k | Plain k}) opened := by
  have hplain : twoChannels.all Call.isPlain = true := by decide +kernel
  obtain ⟨tr, hp, -⟩ := path_afterCalls (ownKeys_of_plain hplain) (within_of_plain hplain)
    (show (runCalls localnet twoChannels genesis).isSome by decide +kernel)
  exact hp.reach (.init genesis_init)

theorem postSecond_step : (program localnet).step opened postSecond.event posted :=
  step_afterCalls (ownKeys_of_plain (show [postSecond].all Call.isPlain = true by decide +kernel) _
    (List.mem_singleton_self _)) (by decide +kernel)

theorem posted_reach : (program localnet).Reach (Within {k | Plain k}) posted :=
  .step twoChannels_reach postSecond_step (within_of_plain
    (show [postSecond].all Call.isPlain = true by decide +kernel) _ (List.mem_singleton_self _) _ _)

/-- What the post did: `bob` paid, and besides the treasury shard only accounts of the second channel
    changed. -/
theorem posted_frame :
    (opened.cell localnet).Live second ∧ (∀ k, k ≠ bob → opened.lamports k ≤ posted.lamports k) ∧
      ∀ k, ¬ BoundTo localnet {k | Plain k} second k →
        posted.data k = opened.data k ∧ posted.owner k = opened.owner k := by
  have hT : opened.Tidy localnet := reach_tidy twoChannels_reach
  obtain ⟨d, hd, -⟩ := processFillSlot_ok hT postSecond_step.2
  have hpos : ∀ i, i < 5 → [d.payer, d.thread, d.settings, d.treasury, d.author][i]? =
      (keysOf postSecond.accounts)[i]? := fun i hi => (getElem?_of_take hd.keys hi).symm
  have hpayer : d.payer = bob := Option.some.inj (hpos 0 (by omega))
  have hthread : d.thread = second := Option.some.inj (hpos 1 (by omega))
  have htreasury : d.treasury = addressOf (.treasuryShard 0) := Option.some.inj (hpos 3 (by omega))
  have hplain : ∀ j ∈ [d.thread], j ∈ {k | Plain k} :=
    List.forall_mem_singleton.mpr ⟨4, hthread⟩
  have hbound : ∀ {q : Pda} {k : Pubkey}, localnet.HasAddress q k → q.keys = [d.thread] →
      q.thread? = some d.thread → BoundTo localnet {k | Plain k} second k := by
    intro q k ha hkeys hq
    exact .derived q (hkeys ▸ hplain) (hq.trans (congrArg some hthread)) ha
  have htouch := hd.touches (S := {k | k = bob ∨ k = addressOf (.treasuryShard 0) ∨
    BoundTo localnet {k | Plain k} second k}) (.inl hpayer) (.inr (.inl htreasury))
    (.inr (.inr (hbound hd.shards.author_addr rfl rfl)))
    (.inr (.inr (hbound hd.content_addr rfl rfl)))
  refine ⟨hthread ▸ hd.thread_holds.live hd.thread_tag,
    fun k hk => hd.spends.others k (hpayer ▸ hk), fun k hk => ?_⟩
  by_cases hb : k = bob
  · rw [hb]
    exact ⟨by decide +kernel, by decide +kernel⟩
  · by_cases ht : k = addressOf (.treasuryShard 0)
    · rw [ht]
      exact ⟨by decide +kernel, by decide +kernel⟩
    · have hS : ¬ (k = bob ∨ k = addressOf (.treasuryShard 0) ∨
          BoundTo localnet {k | Plain k} second k) := not_or.mpr ⟨hb, not_or.mpr ⟨ht, hk⟩⟩
      exact ⟨htouch.data k hS, htouch.owner k hS⟩

theorem unposted_reach : (program localnet).Reach (Within {k | Plain k}) unposted := by
  have hbob : opened.owner bob ≠ localnet.programId := by decide +kernel
  have hout : Outside localnet opened unposted := by
    refine .of_lamports fun k hk => posted_frame.2.1 k fun hb => ?_
    rw [hb] at hk
    exact hbob hk
  exact .step twoChannels_reach (l := .outside) hout fun _ _ _ h => by cases h

theorem unposted_live : (unposted.cell localnet).Live second := live_of_lamports posted_frame.1

theorem posted_agree : AgreeOff localnet {k | Plain k} second unposted posted :=
  agreeOff_of_lamports posted_frame.2.2

end Local

/-- A fee change on the first channel, with and without the message in the second one. -/
theorem thread_isolation_fee :
    (∀ τ, (program localnet).step Local.unposted Local.raiseFee.event τ →
      ∀ k, BoundTo localnet {k | Plain k} Local.second k → Untouched Local.unposted τ k) ∧
    Isolated localnet {k | Plain k} Local.sysvars Local.raiseFee.accounts Local.raiseFee.ix
      Local.second Local.unposted Local.posted := by
  have hplain : [Local.raiseFee].all Call.isPlain = true := by decide +kernel
  have hsig : Local.second ∉ signers Local.raiseFee.accounts := not_mem_signers (by decide +kernel)
  have hiso := thread_isolation (t := Local.channel) localnet_collisionFree Local.unposted_reach
    (within_of_plain hplain Local.raiseFee (List.mem_singleton_self _) _ _) rfl (by decide)
    Local.unposted_live hsig
  exact ⟨hiso.1, hiso.2 Local.posted Local.posted_reach Local.posted_agree fun _ h => by cases h⟩

/-- **A sweep sees a foreign shard**: it passes over the other thread's shard where that is not open,
    and refuses it where it is. -/
theorem sweep_sees_other_thread : ¬ ∀ (R : Runtime) (K : Set Pubkey) (σ σ₂ : Ledger) (sv : Sysvars)
    (accounts : List AccountInfo) (ix : ProgramInstruction) (t t' : Pubkey),
    R.CollisionFree K → (program R).Reach (Within K) σ → (program R).Reach (Within K) σ₂ →
    Within K σ (.call sv accounts ix) σ → ix.threadOf R σ accounts = some t → t ≠ t' →
    (σ.cell R).Live t' → t' ∉ signers accounts → AgreeOff R K t' σ σ₂ →
    Isolated R K sv accounts ix t' σ σ₂ := by
  intro hclaim
  have hplain : [Local.sweepForeign].all Call.isPlain = true := by decide +kernel
  have hown := ownKeys_of_plain hplain _ (List.mem_singleton_self _)
  have hsig : Local.second ∉ signers Local.sweepForeign.accounts :=
    not_mem_signers (by decide +kernel)
  have hiso := hclaim localnet {k | Plain k} Local.unposted Local.posted Local.sysvars
    Local.sweepForeign.accounts Local.sweepForeign.ix Local.channel Local.second
    localnet_collisionFree Local.unposted_reach Local.posted_reach
    (within_of_plain hplain _ (List.mem_singleton_self _) _ _) rfl (by decide) Local.unposted_live
    hsig Local.posted_agree
  obtain ⟨⟨⟨⟩, τ⟩, hτ⟩ := exists_ok_of_isSome (show (processInstruction localnet Local.sysvars
    Local.sweepForeign.accounts Local.sweepForeign.ix Local.unposted).toOption.isSome = true by
      decide +kernel)
  obtain ⟨τ₂, -, hτ₂⟩ := hiso.succeeds.mp ⟨τ, hown, hτ⟩
  have hfail : (processInstruction localnet Local.sysvars Local.sweepForeign.accounts
      Local.sweepForeign.ix Local.posted).toOption.isSome = false := by decide +kernel
  rw [hτ₂] at hfail
  cases hfail

end Txtcel
