import Txtcel.Properties.Gating
import Txtcel.Properties.Funds
import Txtcel.Spec.Flows
import Txtcel.System.Deployment

/-!
# The revenue ledger reconciles

What a fee shard holds is what it was initialized with, plus every share due to it, plus what others
sent it, minus what was swept out of it -- over every run with a fixed rent.

* `dues`: the shares an instruction owes, and to whom, read off its accounts and the store;
* `Act.shardLaw`: one act, at one shard. A fee that meets a shard below its rent minimum would pay
  the minimum instead; `reach_funded` says that no initialized shard is ever below it;
* `revenue_ledger`: the whole run, from the step that initialized the shard.
-/

namespace Txtcel

open Lib Function

variable {R : Runtime} {sv : Sysvars} {accounts : List AccountInfo} {σ σ' : Ledger}
  {ix : ProgramInstruction} {s k t a p : Pubkey} {r : Nat}

/-! ## 1. The shares -/

def Ledger.settingsAt (σ : Ledger) (R : Runtime) (k : Pubkey) : Option ProgramSettings :=
  match σ.cell R k with
  | .holds (.settings x) => some x
  | _ => none

def Ledger.threadAt (σ : Ledger) (R : Runtime) (k : Pubkey) : Option ThreadNode :=
  match σ.cell R k with
  | .holds (.thread x) => some x
  | _ => none

def Ledger.contentAt (σ : Ledger) (R : Runtime) (k : Pubkey) : Option ContentNode :=
  match σ.cell R k with
  | .holds (.content x) => some x
  | _ => none

def Ledger.accessAt (σ : Ledger) (R : Runtime) (k : Pubkey) : Option ThreadAccess :=
  match σ.cell R k with
  | .holds (.access x) => some x
  | _ => none

/-- The shares of a fee that the author and the platform split. -/
def splitDues (amount : Nat) (cut : UInt32) (treasury author : Pubkey) : List (Pubkey × Nat) :=
  [(treasury, feeShare amount cut.toNat), (author, amount - feeShare amount cut.toNat)]

/-- What liking the message costs the wallet. -/
def likeFeeDue (x : ThreadNode) (m : ContentNode) (w : Pubkey) : Nat :=
  if 0 < x.likeFee ∧ w ≠ m.header.author then x.likeFee.toNat else 0

/-- **The shares an instruction owes**, with the rates in force. -/
def dues (R : Runtime) (sv : Sysvars) (accounts : List AccountInfo) (σ : Ledger)
    (ix : ProgramInstruction) : List (Pubkey × Nat) :=
  let key (i : Nat) : Option Pubkey := (keysOf accounts)[i]?
  let owed : Option (List (Pubkey × Nat)) :=
    match ix with
    | .createRootAlloc _ _ title => do
      let settings ← σ.settingsAt R (← key 3)
      let rent := sv.rent (ThreadNode.size title.length) + sv.rent AllocNode.size
      some [(← key 4, feeShare rent settings.baseFeeBps.toNat)]
    | .fillSlot _ body _ _ _ _ _ _ => do
      let thread ← σ.threadAt R (← key 1)
      let settings ← σ.settingsAt R (← key 2)
      let rent := sv.rent (ContentNode.size body.length)
      let fee := authorFeeDue R σ (← key 1) (← key 0) thread
      some ((← key 3, feeShare rent settings.baseFeeBps.toNat) ::
        splitDues fee settings.authorFeeCutBps (← key 3) (← key 4))
    | .appendContent chunk _ _ => do
      let content ← σ.contentAt R (← key 1)
      let settings ← σ.settingsAt R (← key 3)
      let rent := sv.rent (ContentNode.size (content.body.length + chunk.length)) -
        sv.rent (ContentNode.size content.body.length)
      some [(← key 4, feeShare rent settings.baseFeeBps.toNat)]
    | .likeContent .. => do
      let content ← σ.contentAt R (← key 2)
      let thread ← σ.threadAt R (← key 3)
      let settings ← σ.settingsAt R (← key 4)
      some (splitDues (likeFeeDue thread content (← key 0)) settings.likeCutBps (← key 5) (← key 6))
    | .requestAccess .. => do
      let access ← σ.accessAt R (← key 1)
      let settings ← σ.settingsAt R (← key 4)
      some (splitDues access.entryFee.toNat settings.entryCutBps (← key 5) (← key 6))
    | .initThreadAccess .. => do
      some [(← key 3, sv.rent ThreadAccess.size)]
    | _ => none
  owed.getD []

/-- What of it goes to `s`. -/
def owedTo (s : Pubkey) : List (Pubkey × Nat) → Nat
  | [] => 0
  | (k, n) :: ds => (if s = k then n else 0) + owedTo s ds

/-- The recipient and the shards of a sweep. -/
def sweepOf (accounts : List AccountInfo) : ProgramInstruction → Option (Pubkey × List Pubkey)
  | .sweepTreasury _ | .sweepAuthorFees _ =>
    match keysOf accounts with
    | _ :: q :: ks => some (q, ks)
    | _ => none
  | _ => none

/-- What a step owes `s`. -/
def dueIn (R : Runtime) (s : Pubkey) (x : Ledger × Event × Ledger) : Nat :=
  match x.2.1 with
  | .call sv accounts ix => owedTo s (dues R sv accounts x.1 ix)
  | .outside => 0

/-- What a step sweeps out of `s`. -/
def sweptIn (s : Pubkey) (x : Ledger × Event × Ledger) : Nat :=
  match x.2.1 with
  | .call sv accounts ix =>
    match sweepOf accounts ix with
    | some (q, ks) => x.1.sweptFrom (sv.rent 0) q s ks
    | none => 0
  | .outside => 0

/-- What a step sends to `s` on the side: a sweep, or somebody outside. -/
def sentIn (s : Pubkey) (x : Ledger × Event × Ledger) : Nat :=
  match x.2.1 with
  | .call sv accounts ix =>
    match sweepOf accounts ix with
    | some (q, ks) => x.1.sweptTo (sv.rent 0) q s ks
    | none => 0
  | .outside => x.2.2.lamports s - x.1.lamports s

section Read

theorem settingsAt_eq_some {x : ProgramSettings} :
    σ.settingsAt R k = some x ↔ σ.cell R k = .holds (.settings x) := by
  unfold Ledger.settingsAt
  split <;> simp_all

theorem threadAt_eq_some {x : ThreadNode} :
    σ.threadAt R k = some x ↔ σ.cell R k = .holds (.thread x) := by
  unfold Ledger.threadAt
  split <;> simp_all

theorem contentAt_eq_some {x : ContentNode} :
    σ.contentAt R k = some x ↔ σ.cell R k = .holds (.content x) := by
  unfold Ledger.contentAt
  split <;> simp_all

theorem accessAt_eq_some {x : ThreadAccess} :
    σ.accessAt R k = some x ↔ σ.cell R k = .holds (.access x) := by
  unfold Ledger.accessAt
  split <;> simp_all

end Read

/-! ## 2. What arrives at a shard -/

/-- An initialized shard that the step named, or that was initialized before. -/
def ShardOf (R : Runtime) (σ : Ledger) (named : List Pubkey) (s : Pubkey) : Prop :=
  σ.cell R s = .vault ∨ σ.Free s ∧ s ∈ named

theorem shardOf_open {c : Pubkey} {x : Cell} (hx : x ≠ .vault)
    (hv : update ((σ.cell R).open t) c x s = .vault) : s ≠ c ∧ ShardOf R σ [t] s := by
  have hs : s ≠ c := by
    rintro rfl
    rw [update_self] at hv
    exact hx hv
  rw [update_of_ne hs] at hv
  refine ⟨hs, ?_⟩
  rcases (σ.cell R).open_apply t s with h | ⟨rfl, hf, -⟩
  · exact .inl (h.symm.trans hv)
  · exact .inr ⟨cell_eq_free.mp hf, by simp⟩

theorem shardOf_opens {c : Pubkey} {x : Cell} (hx : x ≠ .vault)
    (hv : update (((σ.cell R).open t).open a) c x s = .vault) :
    s ≠ c ∧ ShardOf R σ [t, a] s := by
  have hs : s ≠ c := by
    rintro rfl
    rw [update_self] at hv
    exact hx hv
  rw [update_of_ne hs] at hv
  refine ⟨hs, ?_⟩
  rcases ((σ.cell R).open t).open_apply a s with h | ⟨rfl, hf, -⟩
  · rcases (σ.cell R).open_apply t s with h' | ⟨rfl, hf, -⟩
    · exact .inl (h'.symm.trans (h.symm.trans hv))
    · exact .inr ⟨cell_eq_free.mp hf, by simp⟩
  · exact .inr ⟨cell_eq_free.mp (Cells.free_of_open hf), by simp⟩

/-- An initialized shard is funded before and after the shards are opened. -/
theorem ShardOf.le_opened {named : List Pubkey} (h : ShardOf R σ named s)
    (hfund : σ.cell R s = .vault → r ≤ σ.lamports s) : r ≤ σ.opened r s := by
  rcases h with hv | ⟨hf, -⟩
  · exact Nat.le_add_right_of_le (hfund hv)
  · exact Ledger.le_opened_of_free hf

theorem not_free_of_vault (h : σ.cell R s = .vault) : ¬ σ.Free s := fun hf =>
  nomatch (cell_eq_free.mpr hf).symm.trans h

theorem ShardOf.openShard (h : ShardOf R σ [t] s) (hne : s ≠ p) :
    (σ.openShard R r p t).lamports s = σ.opened r s := by
  rw [Ledger.openShard_lamports hne]
  split
  · rfl
  · rename_i hs
    rcases h with hv | ⟨-, hmem⟩
    · exact (Ledger.opened_of_not_free (not_free_of_vault hv)).symm
    · exact absurd (List.mem_singleton.mp hmem) hs

theorem ShardOf.openShards (h : ShardOf R σ [t, a] s) (hne : s ≠ p) :
    (σ.openShards R r p t a).lamports s = σ.opened r s := by
  rw [Ledger.openShards_lamports hne]
  split
  · rfl
  · rename_i hs
    rcases h with hv | ⟨-, hmem⟩
    · exact (Ledger.opened_of_not_free (not_free_of_vault hv)).symm
    · exact absurd (by simpa using hmem) hs

/-- The split of a fee, where the shard is funded. -/
theorem split_owed {amount : Nat} {cut : UInt32} (hne : s ≠ p) (hf : r ≤ σ.lamports s)
    (hlt : amount < 2 ^ 64) (hcut : cut ≤ maxFeeCutBps) :
    (σ.split r amount cut.toNat p a t).lamports s =
      σ.lamports s + owedTo s (splitDues amount cut t a) := by
  rw [Ledger.split_lamports hne (fun _ => hf) (fun _ => hf) hlt (rate_le hcut)]
  simp only [splitDues, owedTo, Nat.add_zero, Nat.add_assoc]

/-! ## 3. One act, at one shard -/

section Acts

variable (hne : ∀ w ∈ signers accounts, s ≠ w) (hfund : σ.cell R s = .vault → sv.rent 0 ≤ σ.lamports s)
  (hrates : ∀ k x, σ.cell R k = .holds (.settings x) → x.Bounded) (hv : σ'.cell R s = .vault)

include hne hfund hrates hv

theorem RootAlloc.Ok.owed {d : RootAlloc} (h : d.Ok R sv accounts σ σ') :
    σ'.lamports s = σ.opened (sv.rent 0) s + owedTo s (dues R sv accounts σ
      (.createRootAlloc d.messageFee d.shard d.title)) := by
  have hcfg := h.settings_holds.cell h.settings_tag
  have hb := hrates _ _ hcfg
  have hp := hne _ h.payer_signed
  have hst : s ≠ d.thread := hne _ h.thread_signed
  rw [h.cells] at hv
  obtain ⟨hsa, hv⟩ : s ≠ d.alloc ∧
      update ((σ.cell R).open d.treasury) d.thread (.holds (.thread d.node)) s = .vault := by
    have hsa : s ≠ d.alloc := by
      rintro rfl
      rw [update_self] at hv
      cases hv
    exact ⟨hsa, by rwa [update_of_ne hsa] at hv⟩
  obtain ⟨-, hshard⟩ := shardOf_open (by simp) hv
  have hdues : dues R sv accounts σ (.createRootAlloc d.messageFee d.shard d.title) =
      [(d.treasury, feeShare (d.threadRent sv + sv.rent AllocNode.size)
        d.current.baseFeeBps.toNat)] := by
    have h3 := getElem?_of_take (i := 3) h.keys (by omega)
    have h4 := getElem?_of_take (i := 4) h.keys (by omega)
    simp [dues, h3, h4, settingsAt_eq_some.mpr hcfg, RootAlloc.threadRent]
  have hbase : d.baseFee sv = feeShare (d.threadRent sv + sv.rent AllocNode.size)
      d.current.baseFeeBps.toNat := baseFeeOf_eq h.rent_lt (rate_le hb.baseFee)
  have hopen := hshard.openShard (r := sv.rent 0) hp
  rw [h.post, Ledger.put_lamports, Ledger.put_lamports, RootAlloc.funded,
    Ledger.create_lamports_of_ne hp hsa, Ledger.collect_lamports hp,
    Ledger.create_lamports_of_ne hp hst, hopen, hdues, hbase]
  · rfl
  · intro _
    rw [Ledger.create_lamports_of_ne hp hst, hopen]
    exact hshard.le_opened hfund

omit hrates in
theorem InitAccess.Ok.owed {d : InitAccess} {enabled : Bool} (h : d.Ok R sv accounts σ σ') :
    σ'.lamports s = σ.opened (sv.rent 0) s + owedTo s (dues R sv accounts σ
      (.initThreadAccess enabled d.shard)) := by
  have hp := hne _ h.signer
  rw [h.cells] at hv
  obtain ⟨hsa, hshard⟩ := shardOf_open (by simp) hv
  have hdues : dues R sv accounts σ (.initThreadAccess enabled d.shard) =
      [(d.treasury, sv.rent ThreadAccess.size)] := by
    have h3 := getElem?_of_take (i := 3) h.keys (by omega)
    simp [dues, h3]
  have hopen := hshard.openShard (r := sv.rent 0) hp
  rw [h.post, Ledger.put_lamports, Ledger.create_lamports_of_ne hp hsa, Ledger.collect_lamports hp,
    hopen, hdues]
  · rfl
  · intro _
    rw [hopen]
    exact hshard.le_opened hfund

theorem RequestAccess.Ok.owed {d : RequestAccess} {ti : UInt16} {ai : UInt8}
    (h : d.Ok R sv accounts σ σ') :
    σ'.lamports s = σ.opened (sv.rent 0) s + owedTo s (dues R sv accounts σ
      (.requestAccess ti ai)) := by
  have hcfg := h.settings_holds.cell h.settings_tag
  have hac := h.access_holds.cell h.access_tag
  have hb := hrates _ _ hcfg
  have hp := hne _ h.signer
  rw [h.cells] at hv
  obtain ⟨-, hv⟩ : s ≠ d.access ∧ update (((σ.cell R).open d.treasury).open d.author) d.entry
      (.holds (.entry (entryNode d.thread d.payer accessAllowed))) s = .vault := by
    have hsa : s ≠ d.access := by
      rintro rfl
      rw [update_self] at hv
      cases hv
    exact ⟨hsa, by rwa [update_of_ne hsa] at hv⟩
  obtain ⟨hse, hshard⟩ := shardOf_opens (by simp) hv
  have hdues : dues R sv accounts σ (.requestAccess ti ai) =
      splitDues d.old.entryFee.toNat d.current.entryCutBps d.treasury d.author := by
    have h1 := getElem?_of_take (i := 1) h.keys (by omega)
    have h4 := getElem?_of_take (i := 4) h.keys (by omega)
    have h5 := getElem?_of_take (i := 5) h.keys (by omega)
    have h6 := getElem?_of_take (i := 6) h.keys (by omega)
    simp [dues, h1, h4, h5, h6, settingsAt_eq_some.mpr hcfg, accessAt_eq_some.mpr hac]
  have hopen := hshard.openShards (r := sv.rent 0) hp
  rw [h.post, Ledger.put_lamports, Ledger.put_lamports, Ledger.create_lamports_of_ne hp hse,
    RequestAccess.paid, split_owed hp _ (UInt64.toNat_lt _) hb.entryCut, hopen, hdues]
  rw [hopen]
  exact hshard.le_opened hfund

theorem FillSlot.Ok.owed {d : FillSlot} {candidates : List CandidateSlot}
    (h : d.Ok R sv accounts σ σ') :
    σ'.lamports s = σ.opened (sv.rent 0) s + owedTo s (dues R sv accounts σ
      (.fillSlot d.post.kind d.post.body candidates d.treasuryIdx d.authorIdx d.post.replyAllocSeq
        d.post.replySlot d.post.maxFee)) := by
  have hcfg := h.settings_holds.cell h.settings_tag
  have hth := h.thread_holds.cell h.thread_tag
  have hb := hrates _ _ hcfg
  have hp := hne _ h.signer
  rw [h.cells] at hv
  obtain ⟨hsc, hshard⟩ := shardOf_opens (by simp) hv
  have hbase : d.baseFee sv = feeShare (d.rent sv) d.current.baseFeeBps.toNat :=
    baseFeeOf_eq (Sysvars.rent_lt _ _) (rate_le hb.baseFee)
  have hdues : dues R sv accounts σ (.fillSlot d.post.kind d.post.body candidates d.treasuryIdx
      d.authorIdx d.post.replyAllocSeq d.post.replySlot d.post.maxFee) =
      (d.treasury, d.baseFee sv) ::
        splitDues d.authorFee d.current.authorFeeCutBps d.treasury d.author := by
    have h0 := getElem?_of_take (i := 0) h.keys (by omega)
    have h1 := getElem?_of_take (i := 1) h.keys (by omega)
    have h2 := getElem?_of_take (i := 2) h.keys (by omega)
    have h3 := getElem?_of_take (i := 3) h.keys (by omega)
    have h4 := getElem?_of_take (i := 4) h.keys (by omega)
    simp [dues, h0, h1, h2, h3, h4, settingsAt_eq_some.mpr hcfg, threadAt_eq_some.mpr hth, hbase,
      h.authorFee_eq, FillSlot.rent]
  have hfee : d.authorFee < 2 ^ 64 := by
    unfold FillSlot.authorFee
    split
    · omega
    · exact UInt64.toNat_lt _
  have hstored : (d.stored R sv σ).lamports s = σ.opened (sv.rent 0) s := by
    rw [FillSlot.stored, Ledger.put_lamports, Ledger.create_lamports_of_ne hp hsc,
      hshard.openShards hp]
  have hle : sv.rent 0 ≤ (d.stored R sv σ).lamports s := by
    rw [hstored]
    exact hshard.le_opened hfund
  have hcollect := Ledger.collect_lamports (n := d.baseFee sv) (k := d.treasury) hp fun _ => hle
  rw [h.post_eq, split_owed hp _ hfee hb.authorFeeCut, hcollect, hstored, hdues, owedTo,
    Nat.add_assoc]
  rw [hcollect]
  exact Nat.le_add_right_of_le hle

theorem AppendContent.Ok.owed {d : AppendContent} {ai : UInt8} (h : d.Ok R sv accounts σ σ') :
    σ'.lamports s = σ.opened (sv.rent 0) s + owedTo s (dues R sv accounts σ
      (.appendContent d.chunk d.treasuryIdx ai)) := by
  have hcfg := h.settings_holds.cell h.settings_tag
  have hm := h.content_holds.cell h.content_tag
  have hb := hrates _ _ hcfg
  have hp := hne _ h.signer
  have hlt : d.rentDelta sv < 2 ^ 64 :=
    Nat.lt_of_le_of_lt (Nat.sub_le _ _) (Sysvars.rent_lt _ _)
  have hbase : d.baseFee sv = feeShare (d.rentDelta sv) d.current.baseFeeBps.toNat :=
    baseFeeOf_eq hlt (rate_le hb.baseFee)
  have hdues : dues R sv accounts σ (.appendContent d.chunk d.treasuryIdx ai) =
      [(d.treasury, d.baseFee sv)] := by
    have h1 := getElem?_of_take (i := 1) h.keys (by omega)
    have h3 := getElem?_of_take (i := 3) h.keys (by omega)
    have h4 := getElem?_of_take (i := 4) h.keys (by omega)
    simp [dues, h1, h3, h4, settingsAt_eq_some.mpr hcfg, contentAt_eq_some.mpr hm, hbase,
      AppendContent.rentDelta, AppendContent.newRent, AppendContent.new]
  rw [h.post, Ledger.put_lamports, AppendContent.charged, hdues]
  rw [h.cells] at hv
  by_cases hd : 0 < d.rentDelta sv
  · rw [if_pos hd] at hv ⊢
    obtain ⟨hsc, hshard⟩ := shardOf_open (by simp) hv
    have hpaid := Ledger.pay_other σ s d.payer d.content
      (d.newRent sv - σ.lamports d.content) hp hsc
    have hopen : ((σ.pay d.payer d.content (d.newRent sv - σ.lamports d.content)).openShard R
        (sv.rent 0) d.payer d.treasury).lamports s = σ.opened (sv.rent 0) s := by
      have hafter : ShardOf R (σ.pay d.payer d.content (d.newRent sv - σ.lamports d.content))
          [d.treasury] s := by
        rw [ShardOf, cells_pay]
        exact hshard
      rw [hafter.openShard hp, Ledger.opened, Ledger.shortfall, hpaid]
      rfl
    rw [Ledger.collect_lamports hp, hopen]
    · rfl
    · intro _
      rw [hopen]
      exact hshard.le_opened hfund
  · rw [if_neg hd] at hv ⊢
    have hsc : s ≠ d.content := by
      rintro rfl
      rw [update_self] at hv
      cases hv
    rw [update_of_ne hsc] at hv
    have hzero : d.baseFee sv = 0 := by
      rw [hbase, Nat.le_zero.mp (Nat.not_lt.mp hd)]
      simp [feeShare]
    rw [Ledger.pay_other _ _ _ _ _ hp hsc, Ledger.opened_of_not_free (not_free_of_vault hv), hzero]
    simp [owedTo]

theorem LikeContent.Ok.owed {d : LikeContent} {maxFee : UInt64} (h : d.Ok R sv accounts σ σ') :
    σ'.lamports s = σ.opened (sv.rent 0) s + owedTo s (dues R sv accounts σ
      (.likeContent d.allocSeq d.slot d.treasuryIdx d.authorIdx maxFee)) := by
  have hcfg := h.settings_holds.cell h.settings_tag
  have hth := h.thread_holds.cell h.thread_tag
  have hm := h.content_holds.cell h.content_tag
  have hb := hrates _ _ hcfg
  have hp := hne _ h.signer
  rw [h.cells] at hv
  obtain ⟨hsl, hshard⟩ := shardOf_opens (by simp) hv
  have hdues : dues R sv accounts σ
      (.likeContent d.allocSeq d.slot d.treasuryIdx d.authorIdx maxFee) =
      splitDues d.fee d.current.likeCutBps d.treasury d.author := by
    have h0 := getElem?_of_take (i := 0) h.keys (by omega)
    have h2 := getElem?_of_take (i := 2) h.keys (by omega)
    have h3 := getElem?_of_take (i := 3) h.keys (by omega)
    have h4 := getElem?_of_take (i := 4) h.keys (by omega)
    have h5 := getElem?_of_take (i := 5) h.keys (by omega)
    have h6 := getElem?_of_take (i := 6) h.keys (by omega)
    simp [dues, h0, h2, h3, h4, h5, h6, settingsAt_eq_some.mpr hcfg, threadAt_eq_some.mpr hth,
      contentAt_eq_some.mpr hm, likeFeeDue, LikeContent.fee]
  have hfee : d.fee < 2 ^ 64 := by
    unfold LikeContent.fee
    split
    · exact UInt64.toNat_lt _
    · omega
  have hcounted : (d.counted R sv σ).lamports s = σ.opened (sv.rent 0) s := by
    unfold LikeContent.counted
    cases d.prev with
    | none =>
      simp only
      rw [Ledger.put_lamports, Ledger.create_lamports_of_ne hp hsl, hshard.openShards hp]
    | some l =>
      simp only
      rw [Ledger.put_lamports, hshard.openShards hp]
  rw [h.post, split_owed hp _ hfee hb.likeCut, hcounted, hdues]
  rw [hcounted]
  exact hshard.le_opened hfund

end Acts

/-! ## 4. The acts that charge nothing -/

section Quiet

/-- A write that leaves no vault was somewhere else. -/
theorem vault_of_update {c : Cells} {x : Cell} (hx : x ≠ .vault) (h : update c k x s = .vault) :
    s ≠ k ∧ c s = .vault := by
  have hs : s ≠ k := by
    rintro rfl
    rw [update_self] at h
    exact hx h
  exact ⟨hs, by rwa [update_of_ne hs] at h⟩

variable (hne : ∀ w ∈ signers accounts, s ≠ w) (hv : σ'.cell R s = .vault)

include hne hv

theorem InitSettings.Ok.quiet {d : InitSettings} (h : d.Ok R sv accounts σ σ') :
    σ.cell R s = .vault ∧ σ'.lamports s = σ.lamports s := by
  rw [h.cells] at hv
  obtain ⟨hs, hv⟩ := vault_of_update (by simp) hv
  refine ⟨hv, ?_⟩
  rw [h.post, Ledger.put_lamports, Ledger.create_lamports_of_ne (hne _ h.signer) hs]

theorem NextAlloc.Ok.quiet {d : NextAlloc} (h : d.Ok R sv accounts σ σ') :
    σ.cell R s = .vault ∧ σ'.lamports s = σ.lamports s := by
  rw [h.cells] at hv
  obtain ⟨-, hv⟩ := vault_of_update (by simp) hv
  obtain ⟨hs, hv⟩ := vault_of_update (by simp) hv
  refine ⟨hv, ?_⟩
  rw [h.post, Ledger.put_lamports, Ledger.put_lamports,
    Ledger.create_lamports_of_ne (hne _ h.payer_signed) hs]

theorem SetEntry.Ok.quiet {d : SetEntry} (h : d.Ok R sv accounts σ σ') :
    σ.cell R s = .vault ∧ σ'.lamports s = σ.lamports s := by
  rw [h.cells] at hv
  obtain ⟨-, hv⟩ := vault_of_update (by simp) hv
  obtain ⟨hs, hv⟩ := vault_of_update (by simp) hv
  refine ⟨hv, ?_⟩
  rw [h.post, Ledger.put_lamports]
  unfold SetEntry.written
  cases d.prev with
  | none =>
    simp only
    rw [Ledger.put_lamports, Ledger.create_lamports_of_ne (hne _ h.signer) hs]
  | some c => rfl

theorem RemoveEntry.Ok.quiet {d : RemoveEntry} (h : d.Ok R accounts σ σ') :
    σ.cell R s = .vault ∧ σ'.lamports s = σ.lamports s := by
  rw [h.cells] at hv
  obtain ⟨-, hv⟩ := vault_of_update (by simp) hv
  obtain ⟨hs, hv⟩ := vault_of_update (by simp) hv
  refine ⟨hv, ?_⟩
  rw [h.post, Ledger.put_lamports, Ledger.allot_lamports,
    Ledger.pay_other _ _ _ _ _ hs (hne _ h.signer)]

theorem CloseContent.Ok.quiet {d : CloseContent} (h : d.Ok R accounts σ σ') :
    σ.cell R s = .vault ∧ σ'.lamports s = σ.lamports s := by
  have hcleared : (d.cleared σ).lamports s = σ.lamports s := by
    unfold CloseContent.cleared
    cases d.reset <;> rfl
  rw [h.cells] at hv
  obtain ⟨hs, hv⟩ := vault_of_update (by simp) hv
  refine ⟨?_, ?_⟩
  · unfold CloseContent.clearedCells at hv
    cases hr : d.reset with
    | none =>
      rw [hr] at hv
      exact hv
    | some r =>
      rw [hr] at hv
      exact (vault_of_update (by simp) hv).2
  · rw [h.post, Ledger.allot_lamports, Ledger.pay_other _ _ _ _ _ hs (hne _ h.signer), hcleared]

theorem Subscribe.Ok.quiet {d : Subscribe} (h : d.Ok R sv accounts σ σ') :
    σ.cell R s = .vault ∧ σ'.lamports s = σ.lamports s := by
  have hp := hne _ h.signer
  rw [h.cells] at hv
  obtain ⟨hsf, hv⟩ := vault_of_update (by simp) hv
  obtain ⟨hsr, hv⟩ := vault_of_update (by simp) hv
  refine ⟨hv, ?_⟩
  have hopened : (d.opened R sv σ).lamports s = σ.lamports s := by
    unfold Subscribe.opened
    cases d.prevRegistry with
    | none =>
      simp only
      rw [Ledger.put_lamports, Ledger.create_lamports_of_ne hp hsr]
    | some r => rfl
  have hreg : (d.registered R sv σ).lamports s = σ.lamports s := by
    unfold Subscribe.registered
    rw [Ledger.put_lamports, Ledger.pay_other _ _ _ _ _ hp hsr, hopened]
  rw [h.post]
  unfold Subscribe.counted
  cases d.prevShard with
  | none =>
    simp only
    rw [Ledger.put_lamports, Ledger.create_lamports_of_ne hp hsf, hreg]
  | some c =>
    simp only
    rw [Ledger.put_lamports, hreg]

theorem Unsubscribe.Ok.quiet {d : Unsubscribe} (h : d.Ok R sv accounts σ σ') :
    σ.cell R s = .vault ∧ σ'.lamports s = σ.lamports s := by
  rw [h.cells] at hv
  obtain ⟨-, hv⟩ := vault_of_update (by simp) hv
  obtain ⟨hs, hv⟩ := vault_of_update (by simp) hv
  refine ⟨hv, ?_⟩
  rw [h.post, Ledger.put_lamports, Ledger.pay_other _ _ _ _ _ hs (hne _ h.signer),
    Ledger.put_lamports]

end Quiet

/-! ## 5. Every act -/

/-- The instruction owes no share and sweeps nothing. -/
def Unpaid (R : Runtime) (sv : Sysvars) (accounts : List AccountInfo) (σ : Ledger)
    (ix : ProgramInstruction) : Prop :=
  dues R sv accounts σ ix = [] ∧ sweepOf accounts ix = none

theorem unpaid_of_edit (h : ix.EditsSettings ∨ ix.EditsThread ∨ ix.EditsAccess) :
    Unpaid R sv accounts σ ix := by
  rcases h with h | h | h
  all_goals cases ix <;> first | exact ⟨rfl, rfl⟩ | exact False.elim h

theorem unpaid_of_entry {w : Pubkey} {c : UInt8}
    (h : ix.addsTo = some (w, c) ∨ ix.removesFrom = some (w, c)) : Unpaid R sv accounts σ ix := by
  rcases h with h | h
  all_goals cases ix <;> first | exact ⟨rfl, rfl⟩ | cases h

/-- What the step does to the balance of an initialized shard. -/
def ShardLaw (R : Runtime) (r : Nat) (s : Pubkey) (x : Ledger × Event × Ledger) : Prop :=
  x.2.2.lamports s + sweptIn s x = x.1.opened r s + dueIn R s x + sentIn s x

theorem Unpaid.shardLaw (h : Unpaid R sv accounts σ ix)
    (hq : σ.cell R s = .vault ∧ σ'.lamports s = σ.lamports s) :
    ShardLaw R r s (σ, .call sv accounts ix, σ') := by
  simp only [ShardLaw, sweptIn, dueIn, sentIn, h.1, h.2, hq.2,
    Ledger.opened_of_not_free (not_free_of_vault hq.1), owedTo]

/-- A fee-charging act brings its share and nothing else. -/
theorem shardLaw_of_owed (hs : sweepOf accounts ix = none)
    (h : σ'.lamports s = σ.opened r s + owedTo s (dues R sv accounts σ ix)) :
    ShardLaw R r s (σ, .call sv accounts ix, σ') := by
  simp only [ShardLaw, sweptIn, dueIn, sentIn, hs, h, Nat.add_zero]

theorem shardLaw_of_sweep {q : Pubkey} {ks : List Pubkey} (hd : dues R sv accounts σ ix = [])
    (hs : sweepOf accounts ix = some (q, ks)) (hv : σ.cell R s = .vault)
    (h : σ' = σ.sweep (sv.rent 0) q ks) : ShardLaw R r s (σ, .call sv accounts ix, σ') := by
  have hflow : (σ.sweep (sv.rent 0) q ks).lamports s + σ.sweptFrom (sv.rent 0) q s ks =
      σ.lamports s + σ.sweptTo (sv.rent 0) q s ks := sweep_flow
  simp only [ShardLaw, sweptIn, dueIn, sentIn, hs, hd, h, owedTo,
    Ledger.opened_of_not_free (not_free_of_vault hv)]
  omega

/-- **One act, at one shard**: the balance is the opened one, plus the share due, plus what a sweep
    brings, minus what a sweep takes. -/
theorem Act.shardLaw (h : Act R sv accounts σ σ' ix) (hne : ∀ w ∈ signers accounts, s ≠ w)
    (hfund : σ.cell R s = .vault → sv.rent 0 ≤ σ.lamports s)
    (hrates : ∀ k x, σ.cell R k = .holds (.settings x) → x.Bounded)
    (hv : σ'.cell R s = .vault) : ShardLaw R (sv.rent 0) s (σ, .call sv accounts ix, σ') := by
  cases h with
  | initSettings d h => exact Unpaid.shardLaw ⟨rfl, rfl⟩ (h.quiet hne hv)
  | settingsEdit d h hix =>
    have hcells := h.cells
    rw [hcells] at hv
    have hold := (vault_of_update (by simp) hv).2
    exact (unpaid_of_edit (.inl hix)).shardLaw ⟨hold, by rw [h.post, Ledger.put_lamports]⟩
  | treasurySweep d h =>
    rw [h.cells] at hv
    exact shardLaw_of_sweep rfl (by simp only [sweepOf, h.keys]) hv h.post
  | authorSweep d h =>
    rw [h.cells] at hv
    exact shardLaw_of_sweep rfl (by simp only [sweepOf, h.keys]) hv h.post
  | rootAlloc d h => exact shardLaw_of_owed rfl (h.owed hne hfund hrates hv)
  | nextAlloc d h => exact Unpaid.shardLaw ⟨rfl, rfl⟩ (h.quiet hne hv)
  | threadEdit d h hix =>
    have hcells := h.cells
    rw [hcells] at hv
    have hold := (vault_of_update (by simp) hv).2
    exact (unpaid_of_edit (.inr (.inl hix))).shardLaw ⟨hold, by rw [h.post, Ledger.put_lamports]⟩
  | initAccess d h => exact shardLaw_of_owed rfl (h.owed hne hfund hv)
  | accessEdit d h hix =>
    have hcells := h.cells
    rw [hcells] at hv
    have hold := (vault_of_update (by simp) hv).2
    exact (unpaid_of_edit (.inr (.inr hix))).shardLaw ⟨hold, by rw [h.post, Ledger.put_lamports]⟩
  | setEntry d h hix => exact (unpaid_of_entry (.inl hix)).shardLaw (h.quiet hne hv)
  | removeEntry d h hix => exact (unpaid_of_entry (.inr hix)).shardLaw (h.quiet hne hv)
  | requestAccess d h => exact shardLaw_of_owed rfl (h.owed hne hfund hrates hv)
  | fillSlot d h _ => exact shardLaw_of_owed rfl (h.owed hne hfund hrates hv)
  | appendContent d h => exact shardLaw_of_owed rfl (h.owed hne hfund hrates hv)
  | likeContent d h => exact shardLaw_of_owed rfl (h.owed hne hfund hrates hv)
  | closeContent d h => exact Unpaid.shardLaw ⟨rfl, rfl⟩ (h.quiet hne hv)
  | subscribe d h => exact Unpaid.shardLaw ⟨rfl, rfl⟩ (h.quiet hne hv)
  | unsubscribe d h => exact Unpaid.shardLaw ⟨rfl, rfl⟩ (h.quiet hne hv)

/-! ## 6. Every run -/

/-- A step that sweeps is the payments of the sweep. -/
theorem Act.sweep_cases (h : Act R sv accounts σ σ' ix) : sweepOf accounts ix = none ∨
    ∃ q ks, σ' = σ.sweep (sv.rent 0) q ks ∧ σ'.cell R = σ.cell R := by
  cases h with
  | treasurySweep d h => exact .inr ⟨_, _, h.post, h.cells⟩
  | authorSweep d h => exact .inr ⟨_, _, h.post, h.cells⟩
  | settingsEdit d h hix =>
    have hu : Unpaid R sv accounts σ ix := unpaid_of_edit (.inl hix)
    exact .inl hu.2
  | threadEdit d h hix =>
    have hu : Unpaid R sv accounts σ ix := unpaid_of_edit (.inr (.inl hix))
    exact .inl hu.2
  | accessEdit d h hix =>
    have hu : Unpaid R sv accounts σ ix := unpaid_of_edit (.inr (.inr hix))
    exact .inl hu.2
  | setEntry d h hix =>
    have hu : Unpaid R sv accounts σ ix := unpaid_of_entry (.inl hix)
    exact .inl hu.2
  | removeEntry d h hix =>
    have hu : Unpaid R sv accounts σ ix := unpaid_of_entry (.inr hix)
    exact .inl hu.2
  | _ => exact .inl rfl

/-- An instruction that is no sweep debits no shard, and a sweep leaves the minimum. -/
theorem Act.funded (h : Act R sv accounts σ σ' ix) (hne : ∀ w ∈ signers accounts, s ≠ w)
    (hfund : σ.cell R s = .vault → sv.rent 0 ≤ σ.lamports s)
    (hrates : ∀ k x, σ.cell R k = .holds (.settings x) → x.Bounded)
    (hv : σ'.cell R s = .vault) : sv.rent 0 ≤ σ'.lamports s := by
  rcases h.sweep_cases with hs | ⟨q, ks, hpost, hcell⟩
  · have hlaw := h.shardLaw hne hfund hrates hv
    have hopen : sv.rent 0 ≤ σ.opened (sv.rent 0) s := by
      rcases h.change s with he | hc
      · exact Nat.le_add_right_of_le (hfund (he.symm.trans hv))
      · rw [hv] at hc
        generalize hx : σ.cell R s = x at hc
        cases hc with
        | openShard p _ _ _ => exact Ledger.le_opened_of_free (cell_eq_free.mp hx)
    simp only [ShardLaw, sweptIn, sentIn, hs] at hlaw
    omega
  · have hbefore : sv.rent 0 ≤ σ.lamports s := hfund (by rw [← hcell]; exact hv)
    by_cases hlt : σ'.lamports s < σ.lamports s
    · rw [hpost] at hlt ⊢
      exact Nat.le_of_eq (sweep_debit hlt).2.2.2.symm
    · omega

section Run

variable {rent : Nat → UInt64}

/-- **No initialized shard is ever below its rent minimum.** -/
theorem reach_funded (h : (program R).Reach (FixedRent rent) σ) (hs : R.IsPda s)
    (hv : σ.cell R s = .vault) : (rent 0).toNat ≤ σ.lamports s := by
  refine reach_induction (I := fun σ => σ.cell R s = .vault → (rent 0).toNat ≤ σ.lamports s)
    ?_ ?_ ?_ h hv
  · intro σ h0 hv
    exact absurd (cell_eq_vault.mp hv).1 (h0.unowned s)
  · intro σ σ' sv accounts ix hr hI hact hown hfix hv
    obtain rfl : sv.minimumBalance = rent := hfix _ _ _ rfl
    exact hact.funded (hown.ne hs) hI (fun k x hk => reach_bounded hr hk) hv
  · intro σ σ' _ hI hout _ hv
    have hold := (hout.vault_iff hs).mp hv
    exact (hI hold).trans (hout.lamports s (cell_eq_vault.mp hold).1)

/-- **Every step obeys the law of an initialized shard.** -/
theorem step_shardLaw {e : Event} (hr : (program R).Reach (FixedRent rent) σ) (hs : R.IsPda s)
    (hstep : (program R).step σ e σ') (hfix : FixedRent rent σ e σ') (hv : σ'.cell R s = .vault) :
    ShardLaw R (rent 0).toNat s (σ, e, σ') := by
  cases e with
  | call sv accounts ix =>
    obtain rfl : sv.minimumBalance = rent := hfix _ _ _ rfl
    exact (reach_act hr hstep).shardLaw (hstep.1.ne hs) (reach_funded hr hs)
      (fun k x hk => reach_bounded hr hk) hv
  | outside =>
    have hold := (Outside.vault_iff hstep hs).mp hv
    have hle := Outside.lamports hstep s (cell_eq_vault.mp hold).1
    simp only [ShardLaw, sweptIn, dueIn, sentIn,
      Ledger.opened_of_not_free (not_free_of_vault hold)]
    omega

/-- A shard that a step initialized was free. -/
theorem step_initialized {e : Event} (hr : (program R).Reach (FixedRent rent) σ) (hs : R.IsPda s)
    (hstep : (program R).step σ e σ') (hv : σ'.cell R s = .vault) :
    σ.cell R s = .vault ∨ σ.Free s := by
  cases e with
  | call sv accounts ix =>
    rcases (reach_act hr hstep).change s with he | hc
    · exact .inl (he.symm.trans hv)
    · rw [hv] at hc
      generalize hx : σ.cell R s = x at hc
      cases hc with
      | openShard p _ _ _ => exact .inr (cell_eq_free.mp hx)
  | outside => exact .inl ((Outside.vault_iff hstep hs).mp hv)

/-- What a run brings and takes at one shard. -/
def totalOver (f : Ledger × Event × Ledger → Nat) (tr : List (Ledger × Event × Ledger)) : Nat :=
  (tr.map f).sum

@[simp] theorem totalOver_append (f : Ledger × Event × Ledger → Nat)
    (tr tr' : List (Ledger × Event × Ledger)) :
    totalOver f (tr ++ tr') = totalOver f tr + totalOver f tr' := by
  simp [totalOver]

@[simp] theorem totalOver_singleton (f : Ledger × Event × Ledger → Nat)
    (x : Ledger × Event × Ledger) : totalOver f [x] = f x := by
  simp [totalOver]

/-- The books of a shard since the step `x` that initialized it, in which it got the balance
    `opened`. -/
structure Reconciles (R : Runtime) (r : Nat) (s : Pubkey) (x : Ledger × Event × Ledger)
    (post : List (Ledger × Event × Ledger)) (σ : Ledger) : Prop where
  /-- The shard did not exist before `x`. -/
  free : x.1.Free s
  initialized : x.2.2.cell R s = .vault
  /-- It was never closed or created again. -/
  lasts : ∀ y ∈ post, y.1.cell R s = .vault
  balance : σ.lamports s + totalOver (sweptIn s) (x :: post) =
    max (x.1.lamports s) r + totalOver (dueIn R s) (x :: post) +
      totalOver (sentIn s) (x :: post)

/-- **The revenue ledger reconciles over every run.** At a fixed rent, what a fee shard holds, plus
    everything swept out of it, is its balance right after the initialization, plus every share
    that was due to it, plus what a sweep or somebody outside sent. -/
theorem revenue_ledger {σ₀ : Ledger} {tr : List (Ledger × Event × Ledger)} {q : Pda}
    (h0 : (program R).init σ₀) (hp : (program R).Path (FixedRent rent) σ₀ tr σ) (_ : q.IsFeeShard)
    (haddr : R.HasAddress q s) (hv : σ.cell R s = .vault) :
    ∃ pre x post, tr = pre ++ x :: post ∧ Reconciles R (rent 0).toNat s x post σ := by
  have hs : R.IsPda s := haddr.isPda
  induction hp with
  | nil => exact absurd (cell_eq_vault.mp hv).1 (h0.unowned s)
  | @snoc tr τ σ e hp hstep hfix ih =>
    have hr := hp.reach (.init h0)
    have hlaw := step_shardLaw hr hs hstep hfix hv
    simp only [ShardLaw] at hlaw
    rcases step_initialized hr hs hstep hv with hold | hfree
    · obtain ⟨pre, x, post, rfl, hrec⟩ := ih hold
      refine ⟨pre, x, post ++ [(τ, e, σ)], by simp, hrec.free, hrec.initialized, ?_, ?_⟩
      · intro y hy
        rcases List.mem_append.mp hy with hy | hy
        · exact hrec.lasts y hy
        · obtain rfl := List.mem_singleton.mp hy
          exact hold
      · have hbal := hrec.balance
        rw [Ledger.opened_of_not_free (not_free_of_vault hold)] at hlaw
        rw [← List.cons_append]
        simp only [totalOver_append, totalOver_singleton]
        omega
    · refine ⟨tr, (τ, e, σ), [], rfl, hfree, hv, by simp, ?_⟩
      rw [Ledger.opened_of_free hfree] at hlaw
      simpa using hlaw

/-- The books of a treasury shard of the channel in use. -/
theorem revenue_ledger_inUse : ∃ tr pre x post, tr = pre ++ x :: post ∧
    Reconciles localnet 100 (Local.addressOf (.treasuryShard 0)) x post
      (afterCalls localnet Local.inUse Local.genesis) := by
  have hfix : ∀ c ∈ Local.inUse, ∀ σ τ, FixedRent Local.sysvars.minimumBalance σ c.event τ :=
    fun c hc σ τ => (Local.inUse_steady c hc σ τ).1
  obtain ⟨tr, hp, -⟩ := Local.inUse_path hfix
  exact ⟨tr, revenue_ledger Local.genesis_init hp (q := .treasuryShard 0)
    (show (0 : UInt16) < nTreasuryShards by decide)
    (Local.hasAddress_addressOf _) (cell_eq_vault.mpr ⟨by decide +kernel, by decide +kernel⟩)⟩

end Run

end Txtcel
