import Txtcel.Spec.Flows
import Txtcel.System.Acts

/-!
# An account that was not passed

An instruction moves lamports between the accounts it was given, and to the account of a new
message. So an account that exists and was not passed keeps its balance to the lamport
(`Act.unnamed`).
-/

namespace Txtcel

open Lib Borsh Function

variable {R : Runtime} {sv : Sysvars} {accounts : List AccountInfo} {σ σ' : Ledger}
  {ix : ProgramInstruction} {k : Pubkey}

/-! ## 1. Operations on the ledger -/

namespace Ledger

variable {p s a q : Pubkey} {r n c : Nat}

theorem openShard_other (hp : k ≠ p) (hs : k ≠ s) :
    (σ.openShard R r p s).lamports k = σ.lamports k := by
  rw [openShard_lamports hp, if_neg hs]

theorem openShards_other (hp : k ≠ p) (hs : k ≠ s) (ha : k ≠ a) :
    (σ.openShards R r p s a).lamports k = σ.lamports k := by
  rw [openShards, openShard_other hp ha, openShard_other hp hs]

theorem sweep_other {ks : List Pubkey} (hq : k ≠ q) (hks : k ∉ ks) :
    (σ.sweep r q ks).lamports k = σ.lamports k := by
  induction ks generalizing σ with
  | nil => rfl
  | cons j ks ih =>
    rw [List.mem_cons, not_or] at hks
    unfold sweep
    split
    · exact ih hks.2
    · rw [ih hks.2, pay_other _ _ _ _ _ hks.1 hq]

end Ledger

/-! ## 2. Acts -/

/-- An account that was not passed is none of those that were. -/
theorem ne_of_unnamed {n : Nat} {ks : List Pubkey} {j : Pubkey} (hk : k ∉ keysOf accounts)
    (hkeys : (keysOf accounts).take n = ks) (hj : j ∈ ks) : k ≠ j := by
  rintro rfl
  exact hk (List.mem_of_mem_take (hkeys ▸ hj))

section Unnamed

variable (hk : k ∉ keysOf accounts)
include hk

theorem InitSettings.Ok.unnamed {d : InitSettings} (h : d.Ok R sv accounts σ σ') :
    σ'.lamports k = σ.lamports k := by
  rw [h.post, Ledger.put_lamports]
  exact Ledger.create_lamports_of_ne (ne_of_unnamed hk h.keys (by simp))
    (ne_of_unnamed hk h.keys (by simp))

theorem RootAlloc.Ok.unnamed {d : RootAlloc} (h : d.Ok R sv accounts σ σ') :
    σ'.lamports k = σ.lamports k := by
  have hp : k ≠ d.payer := ne_of_unnamed hk h.keys (by simp)
  have ht : k ≠ d.thread := ne_of_unnamed hk h.keys (by simp)
  have ha : k ≠ d.alloc := ne_of_unnamed hk h.keys (by simp)
  have hs : k ≠ d.treasury := ne_of_unnamed hk h.keys (by simp)
  rw [h.post, Ledger.put_lamports, Ledger.put_lamports, RootAlloc.funded,
    Ledger.create_lamports_of_ne hp ha, Ledger.collect_other _ _ _ _ _ hp hs,
    Ledger.create_lamports_of_ne hp ht, Ledger.openShard_other hp hs]

theorem NextAlloc.Ok.unnamed {d : NextAlloc} (h : d.Ok R sv accounts σ σ') :
    σ'.lamports k = σ.lamports k := by
  rw [h.post, Ledger.put_lamports, Ledger.put_lamports]
  exact Ledger.create_lamports_of_ne (ne_of_unnamed hk h.keys (by simp))
    (ne_of_unnamed hk h.keys (by simp))

theorem InitAccess.Ok.unnamed {d : InitAccess} (h : d.Ok R sv accounts σ σ') :
    σ'.lamports k = σ.lamports k := by
  have hp : k ≠ d.authority := ne_of_unnamed hk h.keys (by simp)
  have ha : k ≠ d.access := ne_of_unnamed hk h.keys (by simp)
  have hs : k ≠ d.treasury := ne_of_unnamed hk h.keys (by simp)
  rw [h.post, Ledger.put_lamports, Ledger.create_lamports_of_ne hp ha,
    Ledger.collect_other _ _ _ _ _ hp hs, Ledger.openShard_other hp hs]

theorem SetEntry.Ok.unnamed {d : SetEntry} (h : d.Ok R sv accounts σ σ') :
    σ'.lamports k = σ.lamports k := by
  have hp : k ≠ d.authority := ne_of_unnamed hk h.keys (by simp)
  have he : k ≠ d.entry := ne_of_unnamed hk h.keys (by simp)
  rw [h.post, Ledger.put_lamports]
  unfold SetEntry.written
  cases d.prev with
  | none => rw [Ledger.put_lamports, Ledger.create_lamports_of_ne hp he]
  | some s => rfl

theorem RemoveEntry.Ok.unnamed {d : RemoveEntry} (h : d.Ok R accounts σ σ') :
    σ'.lamports k = σ.lamports k := by
  rw [h.post, Ledger.put_lamports]
  exact Ledger.pay_other _ _ _ _ _ (ne_of_unnamed hk h.keys (by simp))
    (ne_of_unnamed hk h.keys (by simp))

theorem RequestAccess.Ok.unnamed {d : RequestAccess} (h : d.Ok R sv accounts σ σ') :
    σ'.lamports k = σ.lamports k := by
  have hp : k ≠ d.payer := ne_of_unnamed hk h.keys (by simp)
  have he : k ≠ d.entry := ne_of_unnamed hk h.keys (by simp)
  have hs : k ≠ d.treasury := ne_of_unnamed hk h.keys (by simp)
  have hu : k ≠ d.author := ne_of_unnamed hk h.keys (by simp)
  rw [h.post, Ledger.put_lamports, Ledger.put_lamports, Ledger.create_lamports_of_ne hp he,
    RequestAccess.paid, Ledger.split_other _ _ _ _ _ _ _ hp hu hs,
    Ledger.openShards_other hp hs hu]

/-- The account of the new message was free, and is not among those that exist. -/
theorem FillSlot.Ok.unnamed {d : FillSlot} (h : d.Ok R sv accounts σ σ') (hf : ¬ σ.Free k) :
    σ'.lamports k = σ.lamports k := by
  have hp : k ≠ d.payer := ne_of_unnamed hk h.keys (by simp)
  have hs : k ≠ d.treasury := ne_of_unnamed hk h.keys (by simp)
  have hu : k ≠ d.author := ne_of_unnamed hk h.keys (by simp)
  have hc : k ≠ d.content := by
    rintro rfl
    exact hf h.content_free
  rw [h.post_eq, Ledger.split_other _ _ _ _ _ _ _ hp hu hs, Ledger.collect_other _ _ _ _ _ hp hs,
    FillSlot.stored, Ledger.put_lamports, Ledger.create_lamports_of_ne hp hc,
    Ledger.openShards_other hp hs hu]

theorem AppendContent.Ok.unnamed {d : AppendContent} (h : d.Ok R sv accounts σ σ') :
    σ'.lamports k = σ.lamports k := by
  have hp : k ≠ d.payer := ne_of_unnamed hk h.keys (by simp)
  have hc : k ≠ d.content := ne_of_unnamed hk h.keys (by simp)
  have hs : k ≠ d.treasury := ne_of_unnamed hk h.keys (by simp)
  rw [h.post, Ledger.put_lamports]
  unfold AppendContent.charged
  split
  · rw [Ledger.collect_other _ _ _ _ _ hp hs, Ledger.openShard_other hp hs,
      Ledger.pay_other _ _ _ _ _ hp hc]
  · exact Ledger.pay_other _ _ _ _ _ hp hc

theorem LikeContent.Ok.unnamed {d : LikeContent} (h : d.Ok R sv accounts σ σ') :
    σ'.lamports k = σ.lamports k := by
  have hp : k ≠ d.payer := ne_of_unnamed hk h.keys (by simp)
  have hl : k ≠ d.likes := ne_of_unnamed hk h.keys (by simp)
  have hs : k ≠ d.treasury := ne_of_unnamed hk h.keys (by simp)
  have hu : k ≠ d.author := ne_of_unnamed hk h.keys (by simp)
  rw [h.post, Ledger.split_other _ _ _ _ _ _ _ hp hu hs]
  unfold LikeContent.counted
  cases d.prev with
  | none =>
    rw [Ledger.put_lamports, Ledger.create_lamports_of_ne hp hl, Ledger.openShards_other hp hs hu]
  | some l => rw [Ledger.put_lamports, Ledger.openShards_other hp hs hu]

theorem CloseContent.Ok.unnamed {d : CloseContent} (h : d.Ok R accounts σ σ') :
    σ'.lamports k = σ.lamports k := by
  have hp : k ≠ d.payer := ne_of_unnamed hk h.keys (by simp)
  have hc : k ≠ d.content := ne_of_unnamed hk h.keys (by simp)
  have hcleared : (d.cleared σ).lamports = σ.lamports := by
    unfold CloseContent.cleared
    cases d.reset with
    | none => rfl
    | some r => rfl
  rw [h.post, Ledger.allot_lamports, Ledger.pay_other _ _ _ _ _ hc hp, hcleared]

theorem Subscribe.Ok.unnamed {d : Subscribe} (h : d.Ok R sv accounts σ σ') :
    σ'.lamports k = σ.lamports k := by
  have hp : k ≠ d.user := ne_of_unnamed hk h.keys (by simp)
  have hr : k ≠ d.registry := ne_of_unnamed hk h.keys (by simp)
  have hs : k ≠ d.shard := ne_of_unnamed hk h.keys (by simp)
  have hopened : (d.opened R sv σ).lamports k = σ.lamports k := by
    unfold Subscribe.opened
    cases d.prevRegistry with
    | none => rw [Ledger.put_lamports, Ledger.create_lamports_of_ne hp hr]
    | some r => rfl
  have hregistered : (d.registered R sv σ).lamports k = σ.lamports k := by
    rw [Subscribe.registered, Ledger.put_lamports, Ledger.pay_other _ _ _ _ _ hp hr, hopened]
  rw [h.post]
  unfold Subscribe.counted
  cases d.prevShard with
  | none => rw [Ledger.put_lamports, Ledger.create_lamports_of_ne hp hs, hregistered]
  | some c => rw [Ledger.put_lamports, hregistered]

theorem Unsubscribe.Ok.unnamed {d : Unsubscribe} (h : d.Ok R sv accounts σ σ') :
    σ'.lamports k = σ.lamports k := by
  rw [h.post, Ledger.put_lamports]
  exact Ledger.pay_other _ _ _ _ _ (ne_of_unnamed hk h.keys (by simp))
    (ne_of_unnamed hk h.keys (by simp))

theorem TreasurySweep.Ok.unnamed {d : TreasurySweep} (h : d.Ok R sv accounts σ σ') :
    σ'.lamports k = σ.lamports k := by
  rw [h.keys, List.mem_cons, List.mem_cons, not_or, not_or] at hk
  rw [h.post, Ledger.sweep_other hk.2.1 hk.2.2]

theorem AuthorSweep.Ok.unnamed {d : AuthorSweep} (h : d.Ok R sv accounts σ σ') :
    σ'.lamports k = σ.lamports k := by
  rw [h.keys, List.mem_cons, List.mem_cons, not_or, not_or] at hk
  rw [h.post, Ledger.sweep_other hk.2.1 hk.2.2]

/-- **An account that exists and was not passed keeps its balance.** -/
theorem Act.unnamed (h : Act R sv accounts σ σ' ix) (hf : ¬ σ.Free k) :
    σ'.lamports k = σ.lamports k := by
  cases h with
  | initSettings d h => exact h.unnamed hk
  | settingsEdit d h _ => rw [h.post, Ledger.put_lamports]
  | treasurySweep d h => exact h.unnamed hk
  | authorSweep d h => exact h.unnamed hk
  | rootAlloc d h => exact h.unnamed hk
  | nextAlloc d h => exact h.unnamed hk
  | threadEdit d h _ => rw [h.post, Ledger.put_lamports]
  | initAccess d h => exact h.unnamed hk
  | accessEdit d h _ => rw [h.post, Ledger.put_lamports]
  | setEntry d h _ => exact h.unnamed hk
  | removeEntry d h _ => exact h.unnamed hk
  | requestAccess d h => exact h.unnamed hk
  | fillSlot d h _ => exact h.unnamed hk hf
  | appendContent d h => exact h.unnamed hk
  | likeContent d h => exact h.unnamed hk
  | closeContent d h => exact h.unnamed hk
  | subscribe d h => exact h.unnamed hk
  | unsubscribe d h => exact h.unnamed hk

end Unnamed

end Txtcel
